import MeldaSec.Lib.Loop
import MeldaSec.Sealing

/-!
# Tenants with different keys

Several groups share one store, each with its own encryption key.  The names
are not encrypted, so a group can overwrite the objects of another one, and
every group lists the names of all of them.

* `tenants_readObject_iff`: after any sequence of writes, a group reads an
  object exactly when the last write to the name was its own, and it reads
  what was written.
* `tenants_objects_eq_iff`: what the store shows without a key is which names
  were last written with the same bytes by the same group.
-/

namespace MeldaSec

open Rust

section

variable [Crates] [CipherCrates] [SerdeSlice EncryptedBlob] {M : Type} [MapAdapter M]

/-- A write through the encryption adapter of a group. -/
structure TenantWrite where
  key : FixedBytes 32
  name : String
  data : Bytes

namespace TenantWrite

/-- The store after the write. -/
def apply (w : TenantWrite) (store : M) : M :=
  ((EncryptionAdapter.mk store w.key).writeObject w.name w.data).2.inner

omit [Crates] in
/-- The object that it stores. -/
def blob (w : TenantWrite) : Bytes := (EncryptionAdapter.mk () w.key).sealed w.data

omit [Crates] [SerdeSlice EncryptedBlob] in
/-- No other key opens its ciphertext: this one does not. -/
def WrongKeyFails (w : TenantWrite) (key : FixedBytes 32) : Prop :=
  w.key ≠ key → ∀ ciphertext,
    CipherCrates.aes256GcmEncrypt w.key (EncryptionAdapter.deriveNonce w.data) w.data
      = some ciphertext →
    CipherCrates.aes256GcmDecrypt key (EncryptionAdapter.deriveNonce w.data) ciphertext = none

end TenantWrite

/-- The store after these writes, the first one first. -/
def writeAll (store : M) (writes : List TenantWrite) : M :=
  writes.foldl (fun store w => w.apply store) store

omit [Crates] [CipherCrates] [SerdeSlice EncryptedBlob] in
/-- The last write to the name. -/
def lastWrite (name : String) (writes : List TenantWrite) : Option TenantWrite :=
  lastSome (fun w => if w.name = name then some w else none) writes

omit [Crates] [CipherCrates] [SerdeSlice EncryptedBlob] in
theorem mem_of_lastWrite {name : String} {writes : List TenantWrite} {w : TenantWrite}
    (h : lastWrite name writes = some w) : w ∈ writes ∧ w.name = name := by
  unfold lastWrite lastSome at h
  obtain ⟨w', hmem, hw'⟩ := List.exists_of_findSome?_eq_some h
  split_ifs at hw' with hname
  rw [← Option.some.inj hw']
  exact ⟨List.mem_reverse.mp hmem, hname⟩

section

variable (hcipher : CipherLaw) (hserde : SerdeSliceLaw EncryptedBlob)
include hcipher hserde

omit [Crates] in
/-- A write changes the store at one name. -/
theorem TenantWrite.objects_apply (w : TenantWrite) (store : M) :
    MapAdapter.objects (w.apply store)
      = Function.update (MapAdapter.objects store) w.name (some w.blob) := by
  have hencrypt : (EncryptionAdapter.mk store w.key).encrypt w.data = .ok w.blob :=
    ((EncryptionAdapter.mk store w.key).encrypt_eq hcipher hserde w.data).1
  unfold apply EncryptionAdapter.writeObject
  rw [hencrypt]
  exact MapAdapter.objects_writeObject store w.name w.blob

omit [Crates] in
/-- An object is the blob of the last write to its name. -/
theorem objects_writeAll {store : M} (hempty : ∀ name, MapAdapter.objects store name = none)
    (writes : List TenantWrite) (name : String) :
    MapAdapter.objects (writeAll store writes) name
      = (lastWrite name writes).map TenantWrite.blob := by
  have hstep : ∀ (store : M) (w : TenantWrite), MapAdapter.objects (w.apply store) name
      = ((if w.name = name then some w else none).map TenantWrite.blob).or
          (MapAdapter.objects store name) := by
    intro store w
    rw [w.objects_apply hcipher hserde]
    by_cases hname : w.name = name
    · rw [if_pos hname, ← hname, Function.update_self]
      rfl
    · rw [if_neg hname, Function.update_of_ne (Ne.symm hname)]
      rfl
  have hlast := foldl_lastSome (fun store : M => MapAdapter.objects store name) hstep store writes
  simp only [hempty, Option.or_none] at hlast
  unfold writeAll lastWrite
  rw [hlast, lastSome_map]

omit [Crates] in
/-- The blob has the ciphertext of what was written. -/
theorem TenantWrite.fromSlice_blob (w : TenantWrite) : ∃ ciphertext,
    CipherCrates.aes256GcmEncrypt w.key (EncryptionAdapter.deriveNonce w.data) w.data
        = some ciphertext ∧
      SerdeSlice.fromSlice w.blob = .ok (EncryptedBlob.mk "aes-256-gcm"
        (EncryptionAdapter.deriveNonce w.data).val ciphertext) := by
  obtain ⟨hencrypt, -⟩ := (EncryptionAdapter.mk () w.key).encrypt_eq hcipher hserde w.data
  obtain ⟨ciphertext, hciphertext, hvec⟩ := EncryptionAdapter.encrypt_eq_ok_iff.mp hencrypt
  obtain ⟨enc, hvec', hparse⟩ := hserde
    (EncryptedBlob.mk "aes-256-gcm" (EncryptionAdapter.deriveNonce w.data).val ciphertext)
  have henc : w.blob = enc := Except.ok.inj (hvec.symm.trans hvec')
  rw [henc]
  exact ⟨ciphertext, hciphertext, hparse⟩

omit [Crates] in
/-- It opens with the key of the write only, and to what was written. -/
theorem TenantWrite.opens_blob_iff {A : Type} {w : TenantWrite} {e : EncryptionAdapter A}
    (hwrong : w.WrongKeyFails e.key) {plaintext : Bytes} :
    e.Opens w.blob plaintext ↔ w.key = e.key ∧ w.data = plaintext := by
  obtain ⟨ciphertext, hciphertext, hparse⟩ := w.fromSlice_blob hcipher hserde
  obtain ⟨ciphertext', hciphertext', hopened⟩ :=
    hcipher w.key (EncryptionAdapter.deriveNonce w.data) w.data
  have hsame : ciphertext = ciphertext' := Option.some.inj (hciphertext.symm.trans hciphertext')
  constructor
  · intro hopens
    obtain ⟨blob, nonce, hblob, -, hnonce, hdecrypted⟩ := hopens
    rw [hparse] at hblob
    rw [← Except.ok.inj hblob] at hnonce hdecrypted
    rw [← Subtype.ext hnonce] at hdecrypted
    by_cases hkey : w.key = e.key
    · rw [← hkey, hsame, hopened] at hdecrypted
      exact ⟨hkey, Option.some.inj hdecrypted⟩
    · rw [hwrong hkey ciphertext hciphertext] at hdecrypted
      cases hdecrypted
  · intro ⟨hkey, hdata⟩
    refine ⟨_, EncryptionAdapter.deriveNonce w.data, hparse, rfl, rfl, ?_⟩
    rw [← hkey, hsame, hopened, hdata]

omit [Crates] in
/-- Its nonce has the length that `decrypt` asserts. -/
theorem TenantWrite.decrypt_blob_ne_panic {A : Type} (w : TenantWrite) (e : EncryptionAdapter A) :
    e.decrypt w.blob ≠ .panic := by
  obtain ⟨ciphertext, -, hparse⟩ := w.fromSlice_blob hcipher hserde
  intro hpanic
  obtain ⟨blob, hblob, -, hlength⟩ := EncryptionAdapter.decrypt_eq_panic_iff.mp hpanic
  rw [hparse] at hblob
  rw [← Except.ok.inj hblob] at hlength
  exact hlength (EncryptionAdapter.deriveNonce w.data).property

end

/-! ## What the groups see -/

section

variable (hcipher : CipherLaw) (hserde : SerdeSliceLaw EncryptedBlob) {store : M}
  (hempty : ∀ name, MapAdapter.objects store name = none)
include hcipher hserde hempty

/-- After any sequence of writes, a group reads an object exactly when the
last write to its name was made with the key of the group, and then it reads
what was written.  The whole read does not panic. -/
theorem tenants_readObject_iff {writes : List TenantWrite} {key : FixedBytes 32}
    (hwrong : ∀ w ∈ writes, w.WrongKeyFails key) (name : String) :
    (∀ offset length out,
        (EncryptionAdapter.mk (writeAll store writes) key).readObject name offset length = .ok out ↔
          ∃ w, lastWrite name writes = some w ∧ w.key = key ∧
            readPart w.data offset length = .ok out) ∧
      (EncryptionAdapter.mk (writeAll store writes) key).readObject name 0 0 ≠ .panic := by
  have hobject := objects_writeAll hcipher hserde hempty writes name
  constructor
  · intro offset length out
    rw [EncryptionAdapter.readObject_eq_ok_iff]
    simp only [hobject, Option.map_eq_some_iff]
    constructor
    · intro ⟨enc, plaintext, ⟨w, hlast, henc⟩, hopens, hpart⟩
      have hwrong' := hwrong w (mem_of_lastWrite hlast).1
      rw [← henc, w.opens_blob_iff hcipher hserde hwrong'] at hopens
      rw [← hopens.2] at hpart
      exact ⟨w, hlast, hopens.1, hpart⟩
    · intro ⟨w, hlast, hkey, hpart⟩
      have hwrong' := hwrong w (mem_of_lastWrite hlast).1
      exact ⟨w.blob, w.data, ⟨w, hlast, rfl⟩,
        (w.opens_blob_iff hcipher hserde hwrong').mpr ⟨hkey, rfl⟩, hpart⟩
  · cases hlast : lastWrite name writes with
    | none =>
      rw [hlast] at hobject
      obtain ⟨e, he⟩ := MapAdapter.readObject_none hobject
      unfold EncryptionAdapter.readObject
      rw [he, Outcome.err_bind]
      intro hpanic
      cases hpanic
    | some w =>
      rw [hlast] at hobject
      rw [EncryptionAdapter.readObject_whole (MapAdapter.readObject_some hobject)]
      exact w.decrypt_blob_ne_panic hcipher hserde _

end

end

section

open Reference

/-- The stand-in cipher checks the key. -/
theorem wrongKeyFails_reference (w : TenantWrite) (key : FixedBytes 32) : w.WrongKeyFails key := by
  intro hkey ciphertext hencrypt
  have hciphertext : ciphertext
      = w.key.val ++ (EncryptionAdapter.deriveNonce w.data).val ++ w.data :=
    (Option.some.inj hencrypt).symm
  have hlength : (w.key.val ++ (EncryptionAdapter.deriveNonce w.data).val).length = 44 := by
    rw [List.length_append, w.key.property, (EncryptionAdapter.deriveNonce w.data).property]
  apply if_neg
  rw [hciphertext, List.take_left' hlength]
  intro hsame
  have hlength' : w.key.val.length = key.val.length := by
    rw [w.key.property, key.property]
  exact hkey (Subtype.ext (List.append_inj_left hsame hlength'))

/-- A group overwrites an object of another one. -/
def tenantWrites : List TenantWrite :=
  [⟨sampleKey 7, "a", sampleData⟩, ⟨sampleKey 8, "a", [0]⟩, ⟨sampleKey 7, "b", sampleData⟩]

theorem tenants_readObject_iff_sample :
    (EncryptionAdapter.mk (writeAll MemoryMap.new tenantWrites) (sampleKey 8)).readObject
      "a" 0 0 = .ok [0] :=
  ((tenants_readObject_iff cipherLaw serdeSliceLaw_encryptedBlob (fun _ => rfl)
    (fun w _ => wrongKeyFails_reference w (sampleKey 8)) "a").1 0 0 [0]).mpr
    ⟨_, rfl, rfl, rfl⟩

end

section

variable [CipherCrates] [SerdeSlice EncryptedBlob] {M : Type} [MapAdapter M]

section

variable (hcipher : CipherLaw) (hserde : SerdeSliceLaw EncryptedBlob) {store : M}
  (hempty : ∀ name, MapAdapter.objects store name = none)
include hcipher hserde hempty

/-- Two objects of the store are equal exactly when neither has been written,
or the last writes to them were of the same bytes by the same group. -/
theorem tenants_objects_eq_iff {writes : List TenantWrite}
    (hwrong : ∀ w ∈ writes, ∀ w' ∈ writes, w.WrongKeyFails w'.key) (name name' : String) :
    MapAdapter.objects (writeAll store writes) name
        = MapAdapter.objects (writeAll store writes) name' ↔
      (lastWrite name writes).map (fun w => (w.key, w.data))
        = (lastWrite name' writes).map (fun w => (w.key, w.data)) := by
  rw [objects_writeAll hcipher hserde hempty, objects_writeAll hcipher hserde hempty]
  cases hlast : lastWrite name writes with
  | none => cases lastWrite name' writes <;> simp
  | some w =>
    cases hlast' : lastWrite name' writes with
    | none => simp
    | some w' =>
      have hopens : (EncryptionAdapter.mk store w'.key).Opens w.blob w'.data ↔
          w.key = w'.key ∧ w.data = w'.data :=
        w.opens_blob_iff hcipher hserde
          (hwrong w (mem_of_lastWrite hlast).1 w' (mem_of_lastWrite hlast').1)
      have hown : (EncryptionAdapter.mk store w'.key).Opens w'.blob w'.data :=
        (w'.opens_blob_iff hcipher hserde (fun hkey => absurd rfl hkey)).mpr ⟨rfl, rfl⟩
      simp only [Option.map_some, Option.some.injEq, Prod.mk.injEq]
      constructor
      · intro hblob
        rw [← hblob] at hown
        exact hopens.mp hown
      · intro ⟨hkey, hdata⟩
        unfold TenantWrite.blob
        rw [hkey, hdata]

end

end

section

open Reference

/-- The objects of the two groups differ. -/
theorem tenants_objects_eq_iff_sample :
    MapAdapter.objects (writeAll MemoryMap.new tenantWrites) "a"
      ≠ MapAdapter.objects (writeAll MemoryMap.new tenantWrites) "b" := by
  rw [ne_eq, tenants_objects_eq_iff cipherLaw serdeSliceLaw_encryptedBlob (fun _ => rfl)
    fun w _ w' _ => wrongKeyFails_reference w w'.key]
  have hlast : lastWrite "a" tenantWrites = some ⟨sampleKey 8, "a", [0]⟩ := rfl
  have hlast' : lastWrite "b" tenantWrites = some ⟨sampleKey 7, "b", sampleData⟩ := rfl
  rw [hlast, hlast']
  simp only [Option.map_some, Option.some.injEq, Prod.mk.injEq, not_and]
  intro hkey
  exact absurd hkey (by decide)

end

end MeldaSec
