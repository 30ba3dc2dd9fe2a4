import MeldaSec.Crates
import Mathlib.Data.List.AList

/-!
# The storage interface

`Adapter` is the trait of `melda` that every layer implements and that every
layer reads and writes through.  A method takes `&self`, so the state of an
adapter changes behind the reference: a write returns the new state beside
its result.

`MapAdapter` says that an adapter is a map from names to bytes, which is what
the code assumes of a storage backend.  The state holds a partial function,
a read looks it up, a listing returns the names with the suffix in any order
and with any repetitions, and a write changes the function at one name.
`MemoryMap` is a map in memory, which shows that such adapters exist.
-/

namespace MeldaSec

open Rust

/-- The trait `melda::adapter::Adapter`. -/
class Adapter (A : Type) where
  /-- `read_object`: the whole object for offset and length zero, and
  otherwise a slice. -/
  readObject : A → String → UInt64 → UInt64 → Result Bytes
  /-- `write_object`, with the state it leaves behind. -/
  writeObject : A → String → Bytes → Result Unit × A
  /-- `list_objects`: the names with the given suffix. -/
  listObjects : A → String → Result (List String)

/-- An adapter whose state is a map from names to bytes. -/
class MapAdapter (A : Type) extends Adapter A where
  /-- The bytes stored under a name. -/
  objects : A → String → Option Bytes
  readObject_some : ∀ {store name bytes}, objects store name = some bytes →
    readObject store name 0 0 = .ok bytes
  readObject_none : ∀ {store name}, objects store name = none →
    ∃ e, readObject store name 0 0 = .err e
  listObjects_ok : ∀ store suffix, ∃ names, listObjects store suffix = .ok names ∧
    ∀ name, name ∈ names ↔ (objects store name).isSome ∧ endsWith name suffix = true
  writeObject_fst : ∀ store name bytes, (writeObject store name bytes).1 = .ok ()
  objects_writeObject : ∀ store name bytes,
    objects (writeObject store name bytes).2
      = Function.update (objects store) name (some bytes)

namespace MapAdapter

variable {A : Type} [MapAdapter A]

theorem readObject_eq_ok_iff {store : A} {name : String} {bytes : Bytes} :
    Adapter.readObject store name 0 0 = .ok bytes ↔ objects store name = some bytes := by
  constructor
  · intro h
    cases hobj : objects store name with
    | none =>
      obtain ⟨e, he⟩ := readObject_none hobj
      simp [h] at he
    | some bytes' =>
      rw [readObject_some hobj] at h
      rw [Outcome.ok.inj h]
  · exact readObject_some

theorem readObject_congr {B : Type} [MapAdapter B] {store : A} {store' : B} {name : String}
    (h : objects store name = objects store' name) (bytes : Bytes) :
    Adapter.readObject store name 0 0 = .ok bytes ↔
      Adapter.readObject store' name 0 0 = .ok bytes := by
  rw [readObject_eq_ok_iff, readObject_eq_ok_iff, h]

theorem readObject_ne_panic (store : A) (name : String) :
    Adapter.readObject store name 0 0 ≠ .panic := by
  cases hobj : objects store name with
  | none =>
    obtain ⟨e, he⟩ := readObject_none hobj
    simp [he]
  | some bytes => simp [readObject_some hobj]

theorem listObjects_ne_panic (store : A) (suffix : String) :
    Adapter.listObjects store suffix ≠ .panic := by
  obtain ⟨names, hnames, -⟩ := listObjects_ok store suffix
  simp [hnames]

end MapAdapter

/-- A write that succeeds replaces the object, and leaves every other object
alone. -/
structure OverwriteLaw (A : Type) [Adapter A] : Prop where
  written : ∀ {store : A} {name bytes}, (Adapter.writeObject store name bytes).1 = .ok () →
    Adapter.readObject (Adapter.writeObject store name bytes).2 name 0 0 = .ok bytes
  others : ∀ {store : A} {name bytes other data},
    (Adapter.writeObject store name bytes).1 = .ok () → other ≠ name →
    (Adapter.readObject (Adapter.writeObject store name bytes).2 other 0 0 = .ok data ↔
      Adapter.readObject store other 0 0 = .ok data)

theorem MapAdapter.overwriteLaw {A : Type} [MapAdapter A] : OverwriteLaw A where
  written {store name bytes} _ := by
    rw [readObject_eq_ok_iff, objects_writeObject, Function.update_self]
  others {store name bytes other data} _ hother := by
    rw [readObject_eq_ok_iff, readObject_eq_ok_iff, objects_writeObject,
      Function.update_of_ne hother]

/-! ## A map in memory -/

/-- The simplest map adapter.  It stands for no type of the source, and the
samples run over it. -/
structure MemoryMap where
  entries : AList fun _ : String => Bytes

namespace MemoryMap

/-- An empty store. -/
def new : MemoryMap := ⟨∅⟩

def readObject (store : MemoryMap) (name : String) (offset length : UInt64) :
    Result Bytes :=
  match store.entries.lookup name with
  | none => .err "object_not_found"
  | some data =>
    if offset = 0 ∧ length = 0 then .ok data
    else .ok ((data.drop offset.toNat).take length.toNat)

def writeObject (store : MemoryMap) (name : String) (data : Bytes) :
    Result Unit × MemoryMap :=
  (.ok (), ⟨store.entries.insert name data⟩)

def listObjects (store : MemoryMap) (suffix : String) : Result (List String) :=
  .ok (store.entries.keys.filter (endsWith · suffix))

instance : MapAdapter MemoryMap where
  readObject := readObject
  writeObject := writeObject
  listObjects := listObjects
  objects := fun store name => store.entries.lookup name
  readObject_some := by
    intro store name bytes h
    simp [readObject, h]
  readObject_none := by
    intro store name h
    exact ⟨"object_not_found", by simp [readObject, h]⟩
  listObjects_ok := by
    intro store suffix
    refine ⟨_, rfl, fun name => ?_⟩
    rw [List.mem_filter, ← AList.mem_keys, AList.lookup_isSome]
  writeObject_fst := by
    intro store name bytes
    rfl
  objects_writeObject := by
    intro store name bytes
    funext other
    by_cases h : other = name
    · subst h
      simp [writeObject]
    · simp [writeObject, Function.update_of_ne h, AList.lookup_insert_ne h]

end MemoryMap

end MeldaSec
