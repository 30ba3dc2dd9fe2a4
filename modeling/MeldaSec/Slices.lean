import MeldaSec.ReadPath
import MeldaSec.Encryption

/-!
# Slices near the end of `usize`

Both adapters test `offset + length > data.len()` before they take a slice,
and the sum is a machine sum.  `SlicesExactly` is what such a read should do
for every pair of machine integers, and `sliceOrErr_slicesExactly_iff` says
when it does: the sum has to be a machine integer, or the build has to wrap
and the wrapped sum has to be beyond the object all the same.
-/

namespace MeldaSec

open Rust

section

variable [Crates]

/-- The read returns the bytes from `offset` up to `offset + length` when
these lie inside of the object, and an error when they do not.  In neither
case does it panic. -/
structure SlicesExactly (read : Result Bytes) (object : Bytes) (offset length : UInt64) :
    Prop where
  inside : offset.toNat + length.toNat ≤ object.length →
    read = .ok ((object.drop offset.toNat).take length.toNat)
  outside : object.length < offset.toNat + length.toNat → ∃ e, read = .err e

/-- The end of the slice is a machine integer, or it wraps to a number beyond
the object. -/
def EndTestable (object : Bytes) (offset length : UInt64) : Prop :=
  offset.toNat + length.toNat < UInt64.size ∨
    Crates.overflowChecks = false ∧
      object.length + UInt64.size < offset.toNat + length.toNat

/-- The shared test and slice are exact when the end can be tested. -/
theorem sliceOrErr_slicesExactly_iff (message : Error) (object : Bytes) (offset length : UInt64) :
    SlicesExactly (sliceOrErr message object offset length) object offset length ↔
      EndTestable object offset length := by
  unfold EndTestable
  rcases Nat.lt_or_ge (offset.toNat + length.toNat) UInt64.size with hfits | hover
  · rw [sliceOrErr_of_lt hfits]
    refine iff_of_true ⟨fun hin => ?_, fun hout => ?_⟩ (Or.inl hfits)
    · exact if_neg (by omega)
    · exact ⟨message, if_pos hout⟩
  · rw [sliceOrErr_of_overflow hover, or_iff_right (by omega)]
    split_ifs with hwrap
    · refine iff_of_true ⟨fun hin => ?_, fun _ => ⟨message, rfl⟩⟩ hwrap
      omega
    · refine iff_of_false (fun hexact => ?_) hwrap
      -- Inside or outside, a panic is neither of the two results.
      rcases Nat.lt_or_ge object.length (offset.toNat + length.toNat) with hout | hin
      · obtain ⟨e, he⟩ := hexact.outside hout
        cases he
      · cases hexact.inside hin

/-! ## The two adapters -/

section

variable [CipherCrates] [SerdeSlice EncryptedBlob] [SerdeSlice EndorsementRecord] {A : Type}
  [Adapter A]

omit [SerdeSlice EndorsementRecord] in
/-- With an offset or a length, the plaintext is sliced. -/
theorem EncryptionAdapter.readObject_part {e : EncryptionAdapter A} {name : String}
    {enc object : Bytes} (henc : Adapter.readObject e.inner name 0 0 = .ok enc)
    (hdec : e.decrypt enc = .ok object) {offset length : UInt64}
    (hpart : ¬ (offset = 0 ∧ length = 0)) :
    e.readObject name offset length = sliceOrErr "invalid slice" object offset length := by
  have hwhole : (offset == 0 && length == 0) = false := by
    rw [Bool.and_eq_false_iff, beq_eq_false_iff_ne, beq_eq_false_iff_ne]
    exact not_and_or.mp hpart
  simp only [readObject, henc, hdec, Outcome.ok_bind, hwhole, Bool.false_eq_true, if_false]

/-- A read with an offset or a length is exact in both adapters when the end
of the slice can be tested, and only then. -/
theorem readObject_slicesExactly_iff {offset length : UInt64}
    (hpart : ¬ (offset = 0 ∧ length = 0)) (name : String) (object : Bytes) :
    (∀ t : TrustAdapter A, Adapter.readObject t.inner name 0 0 = .ok object →
      (SlicesExactly (t.readObject name offset length) object offset length ↔
        EndTestable object offset length)) ∧
    ∀ (e : EncryptionAdapter A) (enc : Bytes), Adapter.readObject e.inner name 0 0 = .ok enc →
      e.decrypt enc = .ok object →
      (SlicesExactly (e.readObject name offset length) object offset length ↔
        EndTestable object offset length) := by
  constructor
  · intro t hobject
    rw [t.readObject_part name hpart, hobject, Outcome.ok_bind]
    exact sliceOrErr_slicesExactly_iff _ object offset length
  · intro e enc henc hdec
    rw [EncryptionAdapter.readObject_part henc hdec hpart]
    exact sliceOrErr_slicesExactly_iff _ object offset length

end

end

section

open Reference

/-- `abcdef` -/
def letters : Bytes := [97, 98, 99, 100, 101, 102]

/-- A trust adapter over a store with one object. -/
def plainLetters : TrustAdapter MemoryMap := sampleAdapter .single ∅ (storeOf [("a", letters)])

theorem readObject_plainLetters : Adapter.readObject plainLetters.inner "a" 0 0 = .ok letters :=
  MapAdapter.readObject_some (objects_storeOf _ _)

/-- The same object, encrypted with the sample key. -/
def lettersBlob : EncryptedBlob :=
  ⟨"aes-256-gcm", List.replicate 12 0, List.replicate 32 7 ++ List.replicate 12 0 ++ letters⟩

theorem decrypt_lettersBlob :
    (blobStore lettersBlob).decrypt (asBytes (String.ofList (writeBlob lettersBlob)))
      = .ok letters :=
  EncryptionAdapter.decrypt_eq_ok_iff.mpr
    ⟨lettersBlob, ⟨List.replicate 12 0, rfl⟩, fromSlice_writeBlob _, rfl, rfl, by decide⟩

/-- `cd` is read from both adapters. -/
theorem readObject_slicesExactly_iff_sample :
    plainLetters.readObject "a" 2 2 = .ok [99, 100] ∧
      (blobStore lettersBlob).readObject "a" 2 2 = .ok [99, 100] := by
  have hpart : ¬ ((2 : UInt64) = 0 ∧ (2 : UInt64) = 0) := by decide
  have htestable : EndTestable letters 2 2 := Or.inl (by decide)
  obtain ⟨htrust, hencryption⟩ :=
    readObject_slicesExactly_iff (A := MemoryMap) hpart "a" letters
  constructor
  · exact ((htrust plainLetters readObject_plainLetters).mpr htestable).inside (by decide)
  · exact ((hencryption (blobStore lettersBlob) _ (readObject_blobStore _)
      decrypt_lettersBlob).mpr htestable).inside (by decide)

/-- One byte at the last offset makes both adapters panic in a build that
wraps: the end wraps to zero, which is not beyond the object. -/
theorem lastOffset_not_slicesExactly :
    let last : UInt64 := 18446744073709551615
    (plainLetters.readObject "a" last 1 = .panic ∧
        ¬ SlicesExactly (plainLetters.readObject "a" last 1) letters last 1) ∧
      (blobStore lettersBlob).readObject "a" last 1 = .panic ∧
        ¬ SlicesExactly ((blobStore lettersBlob).readObject "a" last 1) letters last 1 := by
  intro last
  have hpart : ¬ (last = 0 ∧ (1 : UInt64) = 0) := by decide
  have hslice : ∀ message, sliceOrErr message letters last 1 = .panic := by
    intro message
    rw [sliceOrErr_of_overflow (by decide), if_neg (by decide)]
  have hpanic : ¬ SlicesExactly .panic letters last 1 := by
    intro hexact
    obtain ⟨e, he⟩ := hexact.outside (by decide)
    cases he
  have htrust : plainLetters.readObject "a" last 1 = .panic := by
    rw [TrustAdapter.readObject_part _ _ hpart, readObject_plainLetters, Outcome.ok_bind, hslice]
  have hencryption : (blobStore lettersBlob).readObject "a" last 1 = .panic := by
    rw [EncryptionAdapter.readObject_part (readObject_blobStore _) decrypt_lettersBlob hpart,
      hslice]
  rw [htrust, hencryption]
  exact ⟨⟨rfl, hpanic⟩, rfl, hpanic⟩

end

end MeldaSec
