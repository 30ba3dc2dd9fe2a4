import MeldaSec.Reference

/-!
# Which names are endorsement names

The writer and the reader of endorsement names against each other.  On the
pairs of a hexadecimal digest and a nonempty key the reader inverts the
writer (`fileName_decodes`), so no two of them share an object.  The other
direction does not hold: the pattern is not anchored, the extension is
optional, and the decoders behind it can fail.  `acceptsImage_iff` says for
which names the reader answers as if it looked for written names only.
-/

namespace MeldaSec

open Rust

section

variable [Crates]

namespace EndorsementKey

/-! ## From the pair to the name and back -/

/-- The digest of the delta is lower-case hexadecimal, and there is a key. -/
structure WellFormed (key : EndorsementKey) : Prop where
  digest : IsLowerHex key.deltaId.digest
  pubkey : key.pubkey ≠ []

/-- The reader returns the pair that a name was written for, so a name is
written for one pair only. -/
theorem fileName_decodes (hdelta : DeltaIdLaws) (hdigit : DigitLaw) :
    (∀ key : EndorsementKey, key.WellFormed → fromStr key.fileName = .ok key) ∧
      Set.InjOn fileName { key | key.WellFormed } := by
  have hread : ∀ key : EndorsementKey, key.WellFormed → fromStr key.fileName = .ok key :=
    fun key hkey => fromStr_fileName hdelta hdigit hkey.digest hkey.pubkey
  refine ⟨hread, ?_⟩
  intro key hkey key' hkey' hname
  have hsame : fromStr key.fileName = fromStr key'.fileName := congrArg fromStr hname
  rw [hread key hkey, hread key' hkey'] at hsame
  exact Outcome.ok.inj hsame

/-- The name of a pair starts with the index of its delta. -/
theorem exists_head_fileName (hdelta : DeltaIdLaws) (key : EndorsementKey) :
    ∃ c, key.fileName.toList.head? = some c ∧ c.isDigit = true := by
  obtain ⟨index, ⟨hne, hdec⟩, hkey⟩ := hdelta.key_eq key.deltaId
  obtain ⟨c, cs, hindex⟩ := List.exists_cons_of_ne_nil hne
  refine ⟨c, ?_, hdec c (by simp [hindex])⟩
  rw [fileName, hkey]
  simp [hindex]

/-! ## From the name to the pair and back -/

/-- A name is accepted as the pair that it is the file name of, so that it is
looked up as it was listed; and a name that is the file name of no pair is an
error. -/
structure AcceptsImage (s : String) : Prop where
  accepts : ∀ key, fromStr s = .ok key → s = key.fileName
  rejects : (∀ key : EndorsementKey, s ≠ key.fileName) → ∃ e, fromStr s = .err e

/-- The captured parts make up the whole name, with its extension.  The delta
part is written as the delta that it is read as, and every byte of the key
has two digits. -/
structure IsWhole (s : String) (index digest pubkey : List Char) : Prop where
  name : s.toList = index ++ '-' :: digest ++ ".delta.".toList ++ pubkey ++ ".sig".toList
  delta : ∃ deltaId : DeltaId,
    DeltaId.fromStr (String.ofList (index ++ '-' :: digest)) = .ok deltaId ∧
      deltaId.key = String.ofList (index ++ '-' :: digest) ++ ".delta"
  even : pubkey.length % 2 = 0

/-- The captured key part is lower-case hexadecimal. -/
theorem pubkey_lower_of_captures {s : String} {index digest pubkey : List Char}
    (h : ENDORSEMENT_KEY.captures s = some (groups index digest pubkey)) :
    ∀ c ∈ pubkey, Hex.isLower c = true := by
  obtain ⟨index', digest', pubkey', hparts, heq⟩ := exists_parts_of_captures h
  simp only [groups, List.cons.injEq, Prod.mk.injEq, true_and, and_true] at heq
  rw [heq.2]
  exact hparts.pubkey_lower

/-- A whole name is read as the pair that it is the file name of. -/
theorem fromStr_of_isWhole {s : String} {index digest pubkey : List Char}
    (hcap : ENDORSEMENT_KEY.captures s = some (groups index digest pubkey))
    (h : IsWhole s index digest pubkey) :
    ∃ key, fromStr s = .ok key ∧ s = key.fileName := by
  have hlower := pubkey_lower_of_captures hcap
  obtain ⟨deltaId, hid, hkey⟩ := h.delta
  cases hpk : Hex.decodeChars pubkey with
  | none =>
    have hodd := (Hex.decodeChars_eq_none_iff hlower).mp hpk
    have heven := h.even
    omega
  | some pk =>
    refine ⟨⟨deltaId, pk⟩, by rw [fromStr_of_captures hcap, hid, hpk], ?_⟩
    apply String.toList_inj.mp
    rw [h.name, fileName, hkey, Hex.encode, Hex.encodeChars_of_decodeChars hlower hpk]
    simp

/-- A name that is read as the pair that it is the file name of is whole: the
name has the decimal index of the delta, and the pattern captures that
index. -/
theorem exists_isWhole_of_fromStr (hdelta : DeltaIdLaws) (hdigests : DigestLaw)
    (hdigit : DigitLaw) {key : EndorsementKey} (h : fromStr key.fileName = .ok key) :
    ∃ index digest pubkey,
      ENDORSEMENT_KEY.captures key.fileName = some (groups index digest pubkey) ∧
        IsWhole key.fileName index digest pubkey := by
  obtain ⟨index, digest, pubkey, hparts, hcap, hid, hpk⟩ := fromStr_eq_ok_iff.mp h
  obtain ⟨index', ⟨hne, hdec⟩, hkey⟩ := hdelta.key_eq key.deltaId
  rw [hdigests _ _ _ _ hparts hid] at hkey
  have hname : key.fileName.toList
      = index'.toList ++ '-' :: digest ++ ".delta.".toList ++ pubkey ++ ".sig".toList := by
    rw [fileName, hkey, Hex.encode, Hex.encodeChars_of_decodeChars hparts.pubkey_lower hpk]
    simp
  have hparts' : Parts index'.toList digest pubkey :=
    { hparts with
      index_ne_nil := hne
      index_char := fun c hc => isIndexChar_of_isDigit hdigit (hdec c hc) }
  have hgroups := Option.some.inj (hcap.symm.trans (captures_written hdigit hparts' hname))
  simp only [groups, List.cons.injEq, Prod.mk.injEq, true_and, and_true] at hgroups
  obtain rfl : index = index'.toList := List.append_cancel_right hgroups
  refine ⟨index'.toList, digest, pubkey, hcap, hname, ⟨key.deltaId, hid, ?_⟩, ?_⟩
  · rw [hkey]
    apply String.toList_inj.mp
    simp
  · have hsome : Hex.decodeChars pubkey ≠ none := by simp [hpk]
    rw [ne_eq, Hex.decodeChars_eq_none_iff hparts.pubkey_lower] at hsome
    omega

/-- The reader answers as it should when the pattern does not match in the
name, when the match is the whole name, and when it fails on the name of a
pair.  On every other name it panics, or it returns a pair with another name. -/
theorem acceptsImage_iff (hdelta : DeltaIdLaws) (hdigests : DigestLaw) (hdigit : DigitLaw)
    (s : String) :
    AcceptsImage s ↔
      ENDORSEMENT_KEY.captures s = none ∨
        (∃ index digest pubkey, ENDORSEMENT_KEY.captures s = some (groups index digest pubkey) ∧
          IsWhole s index digest pubkey) ∨
        IsBroken s ∧ ∃ key : EndorsementKey, s = key.fileName := by
  constructor
  · intro himage
    cases hread : fromStr s with
    | ok key =>
      obtain rfl := himage.accepts key hread
      exact Or.inr (Or.inl (exists_isWhole_of_fromStr hdelta hdigests hdigit hread))
    | err e =>
      refine Or.inl ?_
      cases hcap : ENDORSEMENT_KEY.captures s with
      | none => rfl
      | some r =>
        -- With a match, the reader returns a pair or panics.
        obtain ⟨index, digest, pubkey, -, rfl⟩ := exists_parts_of_captures hcap
        rw [fromStr_of_captures hcap] at hread
        split at hread <;> cases hread
    | panic =>
      refine Or.inr (Or.inr ⟨fromStr_eq_panic_iff.mp hread, ?_⟩)
      by_contra hnone
      obtain ⟨e, he⟩ := himage.rejects fun key hs => hnone ⟨key, hs⟩
      rw [hread] at he
      cases he
  · intro hcond
    rcases hcond with hcap | ⟨index, digest, pubkey, hcap, hwhole⟩ | ⟨hbroken, hname⟩
    · have hread := fromStr_of_captures_eq_none hcap
      refine ⟨fun key hkey => ?_, fun _ => ⟨_, hread⟩⟩
      rw [hread] at hkey
      cases hkey
    · obtain ⟨key, hread, hs⟩ := fromStr_of_isWhole hcap hwhole
      refine ⟨fun key' hkey' => ?_, fun hnone => absurd hs (hnone key)⟩
      obtain rfl := Outcome.ok.inj (hread.symm.trans hkey')
      exact hs
    · have hread := fromStr_eq_panic_iff.mpr hbroken
      refine ⟨fun key hkey => ?_, fun hnone => absurd hname (not_exists.mpr hnone)⟩
      rw [hread] at hkey
      cases hkey

end EndorsementKey

end

section

open Reference

/-- The first sample key and the first sample delta. -/
def sampleName : EndorsementKey := TrustAdapter.ownEndorsementKey (sampleKey 1) (sampleDelta 1)

theorem wellFormed_sampleName : sampleName.WellFormed :=
  ⟨isLowerHex_sampleDelta 1, by decide⟩

/-- The sample name is read as the sample pair, and is written for no other. -/
theorem fileName_decodes_sample :
    EndorsementKey.fromStr sampleName.fileName = .ok sampleName ∧
      sampleName.fileName ≠ EndorsementKey.fileName ⟨sampleDelta 2, [0]⟩ := by
  obtain ⟨hread, hinj⟩ := EndorsementKey.fileName_decodes deltaIdLaws digitLaw
  refine ⟨hread _ wellFormed_sampleName, fun hname => ?_⟩
  have hother : EndorsementKey.WellFormed ⟨sampleDelta 2, [0]⟩ :=
    ⟨isLowerHex_sampleDelta 2, by simp⟩
  have hpubkey := congrArg EndorsementKey.pubkey (hinj wellFormed_sampleName hother hname)
  exact absurd hpubkey (by decide)

/-- A name in which the pattern matches from end to end is accepted as the
pair that it is the name of. -/
theorem acceptsImage_iff_sample : EndorsementKey.AcceptsImage "1-aa.delta.00.sig" := by
  have hcaptures : ENDORSEMENT_KEY.captures "1-aa.delta.00.sig"
      = some (EndorsementKey.groups ['1'] ['a', 'a'] ['0', '0']) := by decide
  refine (EndorsementKey.acceptsImage_iff deltaIdLaws digestLaw digitLaw _).mpr
    (Or.inr (Or.inl ⟨['1'], ['a', 'a'], ['0', '0'], hcaptures, by decide, ?_, by decide⟩))
  have hkey : (sampleDelta 1).key = String.ofList ['1', '-', 'a', 'a'] ++ ".delta" := by decide
  exact ⟨sampleDelta 1, deltaIdLaws.fromStr_stem _ _ (isLowerHex_sampleDelta 1) hkey, hkey⟩

theorem ne_fileName_of_head {s : String} (hs : s.toList.head? = some 'z') (key : EndorsementKey) :
    s ≠ key.fileName := by
  intro heq
  obtain ⟨c, hc, hdigit⟩ := key.exists_head_fileName deltaIdLaws
  rw [← heq, hs] at hc
  obtain rfl := Option.some.inj hc
  exact absurd hdigit (by decide)

/-- A `.sig` name with text before the match is read as a pair with another
name, and such a name with an odd number of digits makes the reader panic. -/
theorem foreignName_not_acceptsImage :
    (∃ key, EndorsementKey.fromStr "zz1-aa.delta.00.sig" = .ok key ∧
        key.fileName = "1-aa.delta.00.sig") ∧
      ¬ EndorsementKey.AcceptsImage "zz1-aa.delta.00.sig" ∧
      EndorsementKey.fromStr "zz1-aa.delta.0.sig" = .panic ∧
      ¬ EndorsementKey.AcceptsImage "zz1-aa.delta.0.sig" := by
  have hread : EndorsementKey.fromStr "zz1-aa.delta.00.sig" = .ok ⟨sampleDelta 1, [0]⟩ := rfl
  have hpanic : EndorsementKey.fromStr "zz1-aa.delta.0.sig" = .panic := rfl
  refine ⟨⟨_, hread, by decide⟩, ?_, hpanic, ?_⟩
  · intro himage
    exact ne_fileName_of_head (by decide) _ (himage.accepts _ hread)
  · intro himage
    obtain ⟨e, he⟩ := himage.rejects fun key => ne_fileName_of_head (by decide) key
    rw [hpanic] at he
    cases he

end

end MeldaSec
