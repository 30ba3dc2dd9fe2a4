import MeldaSec.Crates
import MeldaSec.Lib.Regex

/-!
# The names of endorsement objects

An endorsement of a delta by a public key is stored under
`<delta key>.<hex of the public key>.sig`.  `fileName` writes that name, and
`fromStr` reads a delta and a public key out of any name in which the pattern
`ENDORSEMENT_KEY` matches somewhere.

The pattern does not guard its two decoders.  `fromStr_eq_panic_iff` says on
which names they panic: the delta part is not read as a delta, or the number
of digits of the public key is odd.  `fromStr_fileName` says that
a name written by `fileName` reads back, and `fromStr_fileName_of_fromStr`
says that every name which reads as some pair has the written name of that
pair beside it.
-/

namespace MeldaSec

open Rust

variable [Crates]

/-- The class `[\d+]`. -/
def isIndexChar (c : Char) : Bool := Crates.isUnicodeDigit c || c == '+'

/-- `(?P<deltaid>[\d+]+-[a-f0-9]+)\.delta\.(?P<pubkey>[a-f0-9]+)(\.sig)?` -/
def ENDORSEMENT_KEY : Regex.Pattern :=
  .seq (.group "deltaid"
      (.seq (.many1 isIndexChar) (.seq (.lit ['-']) (.many1 Hex.isLower))))
    (.seq (.lit ".delta.".toList)
      (.seq (.group "pubkey" (.many1 Hex.isLower)) (.opt (.lit ".sig".toList))))

/-- A delta and the public key of an endorser. -/
structure EndorsementKey where
  deltaId : DeltaId
  pubkey : Bytes

namespace EndorsementKey

/-- `file_name`. -/
def fileName (key : EndorsementKey) : String :=
  key.deltaId.key ++ "." ++ Hex.encode key.pubkey ++ ".sig"

/-- `EndorsementKey::from`. -/
def fromStr (s : String) : Result EndorsementKey :=
  match ENDORSEMENT_KEY.captures s with
  | some r => do
    let deltaid ← Outcome.unwrapSome (Regex.groupText r "deltaid")
    let deltaId ← (DeltaId.fromStr deltaid).unwrap
    let pubkey ← Outcome.unwrapSome (Regex.groupText r "pubkey")
    let pubkey ← Outcome.unwrapSome (Hex.decode pubkey)
    .ok ⟨deltaId, pubkey⟩
  | none => .err ("invalid_endorsement_key: " ++ s)

/-- The groups of a match: an index, a hyphen and a digest, and a key. -/
def groups (index digest pubkey : List Char) : List (String × List Char) :=
  [("deltaid", index ++ '-' :: digest), ("pubkey", pubkey)]

/-- What the three parts of a match are made of. -/
structure Parts (index digest pubkey : List Char) : Prop where
  index_ne_nil : index ≠ []
  index_char : ∀ c ∈ index, isIndexChar c = true
  digest_ne_nil : digest ≠ []
  digest_lower : ∀ c ∈ digest, Hex.isLower c = true
  pubkey_ne_nil : pubkey ≠ []
  pubkey_lower : ∀ c ∈ pubkey, Hex.isLower c = true

/-- `DeltaId::from` keeps the digest of a delta part that the pattern captures.
The index of such a part need not be decimal: its class has the sign `+` and
every Unicode digit. -/
def DigestLaw : Prop :=
  ∀ (index digest pubkey : List Char) (deltaId : DeltaId), Parts index digest pubkey →
    DeltaId.fromStr (String.ofList (index ++ '-' :: digest)) = .ok deltaId →
    deltaId.digest = String.ofList digest

/-- A match of the pattern captures an index with a digest, and a key. -/
theorem exists_parts_of_captures {s : String} {r : List (String × List Char)}
    (h : ENDORSEMENT_KEY.captures s = some r) :
    ∃ index digest pubkey, Parts index digest pubkey ∧ r = groups index digest pubkey := by
  obtain ⟨m, hfind, rfl⟩ := Option.map_eq_some_iff.mp h
  obtain ⟨before, after, -, hmem⟩ := Regex.mem_of_find hfind
  obtain ⟨d, hd, t, ht, rfl⟩ := Regex.mem_seq.mp hmem
  obtain ⟨d', hd', rfl⟩ := Regex.mem_group.mp hd
  obtain ⟨index, hindex, u, hu, rfl⟩ := Regex.mem_seq.mp hd'
  obtain ⟨hyphen, hhyphen, digest, hdigest, rfl⟩ := Regex.mem_seq.mp hu
  obtain ⟨dot, hdot, v, hv, rfl⟩ := Regex.mem_seq.mp ht
  obtain ⟨w, hw, sig, hsig, rfl⟩ := Regex.mem_seq.mp hv
  obtain ⟨pubkey, hpubkey, rfl⟩ := Regex.mem_group.mp hw
  obtain ⟨hi, hic, -, hig⟩ := Regex.mem_many1.mp hindex
  obtain ⟨hyphen_eq, -, hhg⟩ := Regex.mem_lit.mp hhyphen
  obtain ⟨hdne, hdc, -, hdg⟩ := Regex.mem_many1.mp hdigest
  obtain ⟨-, -, hdotg⟩ := Regex.mem_lit.mp hdot
  obtain ⟨hp, hpc, -, hpg⟩ := Regex.mem_many1.mp hpubkey
  have hsigg : sig.groups = [] := by
    rcases Regex.mem_opt.mp hsig with hsig | rfl
    · exact (Regex.mem_lit.mp hsig).2.2
    · rfl
  refine ⟨index.taken, digest.taken, pubkey.taken, ⟨hi, hic, hdne, hdc, hp, hpc⟩, ?_⟩
  simp [groups, hyphen_eq, hig, hhg, hdg, hdotg, hpg, hsigg]

/-- With the captured parts at hand, the reader runs the two decoders. -/
theorem fromStr_of_captures {s : String} {index digest pubkey : List Char}
    (h : ENDORSEMENT_KEY.captures s = some (groups index digest pubkey)) :
    fromStr s =
      match DeltaId.fromStr (String.ofList (index ++ '-' :: digest)),
        Hex.decodeChars pubkey with
      | .ok deltaId, some pk => .ok ⟨deltaId, pk⟩
      | _, _ => .panic := by
  have hd : Regex.groupText (groups index digest pubkey) "deltaid"
      = some (String.ofList (index ++ '-' :: digest)) := rfl
  have hp : Regex.groupText (groups index digest pubkey) "pubkey"
      = some (String.ofList pubkey) := rfl
  rw [fromStr, h]
  simp only [hd, hp, Outcome.unwrapSome_some, Outcome.ok_bind, Hex.decode,
    String.toList_ofList]
  cases DeltaId.fromStr (String.ofList (index ++ '-' :: digest)) with
  | ok deltaId => cases Hex.decodeChars pubkey <;> rfl
  | err e => rfl
  | panic => rfl

/-- A name without a match is an error. -/
theorem fromStr_of_captures_eq_none {s : String} (h : ENDORSEMENT_KEY.captures s = none) :
    fromStr s = .err ("invalid_endorsement_key: " ++ s) := by
  rw [fromStr, h]

theorem fromStr_eq_ok_iff {s : String} {key : EndorsementKey} :
    fromStr s = .ok key ↔
      ∃ index digest pubkey, Parts index digest pubkey ∧
        ENDORSEMENT_KEY.captures s = some (groups index digest pubkey) ∧
        DeltaId.fromStr (String.ofList (index ++ '-' :: digest)) = .ok key.deltaId ∧
        Hex.decodeChars pubkey = some key.pubkey := by
  constructor
  · intro h
    cases hcap : ENDORSEMENT_KEY.captures s with
    | none => simp [fromStr_of_captures_eq_none hcap] at h
    | some r =>
      obtain ⟨index, digest, pubkey, hparts, rfl⟩ := exists_parts_of_captures hcap
      refine ⟨index, digest, pubkey, hparts, rfl, ?_⟩
      rw [fromStr_of_captures hcap] at h
      split at h
      · rename_i deltaId pk hd hp
        obtain rfl := Outcome.ok.inj h
        exact ⟨hd, hp⟩
      · simp at h
  · rintro ⟨index, digest, pubkey, -, hcap, hd, hp⟩
    rw [fromStr_of_captures hcap, hd, hp]

/-- A name in which the pattern matches, with a delta part on which
`DeltaId::from` fails or panics, or with an odd number of digits for the key. -/
def IsBroken (s : String) : Prop :=
  ∃ index digest pubkey, ENDORSEMENT_KEY.captures s = some (groups index digest pubkey) ∧
    ((∀ deltaId, DeltaId.fromStr (String.ofList (index ++ '-' :: digest)) ≠ .ok deltaId) ∨
      pubkey.length % 2 = 1)

/-- The reader panics exactly on the broken names. -/
theorem fromStr_eq_panic_iff {s : String} : fromStr s = .panic ↔ IsBroken s := by
  unfold IsBroken
  cases hcap : ENDORSEMENT_KEY.captures s with
  | none => simp [fromStr_of_captures_eq_none hcap]
  | some r =>
    obtain ⟨index, digest, pubkey, hparts, rfl⟩ := exists_parts_of_captures hcap
    have hodd := Hex.decodeChars_eq_none_iff hparts.pubkey_lower
    rw [fromStr_of_captures hcap]
    constructor
    · intro h
      refine ⟨index, digest, pubkey, rfl, ?_⟩
      by_contra hgood
      rw [not_or, not_forall] at hgood
      obtain ⟨⟨deltaId, hd⟩, heven⟩ := hgood
      rw [not_ne_iff] at hd
      obtain ⟨pk, hp⟩ := Option.ne_none_iff_exists'.mp (mt hodd.mp heven)
      rw [hd, hp] at h
      cases h
    · intro ⟨index', digest', pubkey', heq, hbad⟩
      have hgroups := Option.some.inj heq
      simp only [groups, List.cons.injEq, Prod.mk.injEq, true_and, and_true] at hgroups
      obtain ⟨hdeltaid, rfl⟩ := hgroups
      rw [← hdeltaid] at hbad
      split
      · rename_i deltaId pk hd hp
        rcases hbad with hbad | hlen
        · exact absurd hd (hbad deltaId)
        · simp [hodd.mpr hlen] at hp
      · rfl

/-- A name that reads as a pair has a nonempty public key in it. -/
theorem pubkey_ne_nil_of_fromStr {s : String} {key : EndorsementKey}
    (h : fromStr s = .ok key) : key.pubkey ≠ [] := by
  obtain ⟨index, digest, pubkey, hparts, -, -, hp⟩ := fromStr_eq_ok_iff.mp h
  exact Hex.ne_nil_of_decodeChars hp hparts.pubkey_ne_nil

/-! ## The written names -/

theorem endsWith_fileName (key : EndorsementKey) : endsWith key.fileName ".sig" = true :=
  endsWith_append _ _

/-- The name of an endorsement is not the name of a delta. -/
theorem fileName_ne_key (hdelta : DeltaIdLaws) (key : EndorsementKey) (deltaId : DeltaId) :
    key.fileName ≠ deltaId.key := by
  intro h
  obtain ⟨stem, hstem⟩ := endsWith_iff.mp (endsWith_fileName key)
  obtain ⟨stem', hstem'⟩ := endsWith_iff.mp (hdelta.endsWith_key deltaId)
  have hlast := congrArg (fun s : String => s.toList.getLast?) (hstem.symm.trans (h.trans hstem'))
  simp at hlast

/-- A decimal digit is in the index class, and a hyphen is not. -/
theorem isIndexChar_of_isDigit (hdigit : DigitLaw) {c : Char} (h : c.isDigit = true) :
    isIndexChar c = true := by
  have hascii : c.toNat < 128 := by
    simp only [Char.isDigit, Bool.and_eq_true, decide_eq_true_eq, UInt32.le_iff_toNat_le] at h
    exact Nat.lt_of_le_of_lt h.2 (by decide)
  rw [isIndexChar, hdigit c hascii, h, Bool.true_or]

theorem isIndexChar_hyphen (hdigit : DigitLaw) : isIndexChar '-' = false := by
  rw [isIndexChar, hdigit '-' (by decide)]
  rfl

/-- The pattern splits a written name at the boundaries of the writer. -/
theorem captures_written (hdigit : DigitLaw) {index digest pubkey : List Char}
    (hparts : Parts index digest pubkey) {s : String}
    (hs : s.toList = index ++ '-' :: digest ++ ".delta.".toList ++ pubkey ++ ".sig".toList) :
    ENDORSEMENT_KEY.captures s = some (groups index digest pubkey) := by
  -- Each run stops at the first character behind it, which is not of its class.
  have hindex : ∀ rest : List Char, ∀ c ∈ ('-' :: rest).head?, isIndexChar c = false := by
    simp [isIndexChar_hyphen hdigit]
  have hdot : ∀ rest : List Char, ∀ c ∈ ('.' :: rest).head?, Hex.isLower c = false := by
    simp [Hex.isLower]
  have hdeltaid := Regex.head_group "deltaid"
    (Regex.head_seq
      (Regex.head_many1 hparts.index_ne_nil hparts.index_char
        (hindex (digest ++ (".delta.".toList ++ (pubkey ++ ".sig".toList)))))
      (Regex.head_seq (Regex.head_lit ['-'] _)
        (Regex.head_many1 hparts.digest_ne_nil hparts.digest_lower
          (hdot ("delta.".toList ++ (pubkey ++ ".sig".toList))))))
  have hpubkey := Regex.head_seq (Regex.head_lit ".delta.".toList (pubkey ++ ".sig".toList))
    (Regex.head_seq
      (Regex.head_group "pubkey"
        (Regex.head_many1 hparts.pubkey_ne_nil hparts.pubkey_lower (hdot "sig".toList)))
      (Regex.head_opt (Regex.head_lit ".sig".toList [])))
  have hfind := Regex.find_of_head (Regex.head_seq hdeltaid hpubkey)
  have htext : s.toList = index ++ '-' :: (digest ++ (".delta.".toList ++
      (pubkey ++ ".sig".toList))) := by
    rw [hs]
    simp [List.append_assoc]
  rw [Regex.Pattern.captures, ENDORSEMENT_KEY, htext, hfind]
  rfl

/-- A name that `fileName` wrote reads back as the pair it was written for. -/
theorem fromStr_fileName (hdelta : DeltaIdLaws) (hdigit : DigitLaw) {deltaId : DeltaId}
    (hdigest : IsLowerHex deltaId.digest) {pubkey : Bytes} (hpk : pubkey ≠ []) :
    fromStr (fileName ⟨deltaId, pubkey⟩) = .ok ⟨deltaId, pubkey⟩ := by
  obtain ⟨index, ⟨hne, hdec⟩, hkey⟩ := hdelta.key_eq deltaId
  have hparts : Parts index.toList deltaId.digest.toList (Hex.encodeChars pubkey) :=
    ⟨hne, fun c hc => isIndexChar_of_isDigit hdigit (hdec c hc), hdigest.1, hdigest.2,
      Hex.encodeChars_ne_nil hpk, fun _ => Hex.isLower_of_mem_encodeChars⟩
  have hstem : String.ofList (index.toList ++ '-' :: deltaId.digest.toList)
      = index ++ "-" ++ deltaId.digest := by
    apply String.toList_inj.mp
    simp
  have hname : (fileName ⟨deltaId, pubkey⟩).toList
      = index.toList ++ '-' :: deltaId.digest.toList ++ ".delta.".toList
        ++ Hex.encodeChars pubkey ++ ".sig".toList := by
    rw [fileName, hkey, Hex.encode]
    simp
  have hcap := captures_written hdigit hparts hname
  refine fromStr_eq_ok_iff.mpr ⟨_, _, _, hparts, hcap, ?_, Hex.decodeChars_encodeChars pubkey⟩
  rw [hstem]
  exact hdelta.fromStr_stem deltaId _ hdigest hkey

/-- The digest of a delta that was read out of a name is lower-case
hexadecimal, as the digest in the name is. -/
theorem isLowerHex_digest_of_fromStr (hdigests : DigestLaw) {s : String} {key : EndorsementKey}
    (h : fromStr s = .ok key) : IsLowerHex key.deltaId.digest := by
  obtain ⟨index, digest, pubkey, hparts, -, hd, -⟩ := fromStr_eq_ok_iff.mp h
  rw [hdigests _ _ _ _ hparts hd, IsLowerHex, String.toList_ofList]
  exact ⟨hparts.digest_ne_nil, hparts.digest_lower⟩

/-- Where some name reads as a pair, the written name of that pair does. -/
theorem fromStr_fileName_of_fromStr (hdelta : DeltaIdLaws) (hdigests : DigestLaw)
    (hdigit : DigitLaw) {s : String} {key : EndorsementKey} (h : fromStr s = .ok key) :
    fromStr key.fileName = .ok key :=
  fromStr_fileName hdelta hdigit (isLowerHex_digest_of_fromStr hdigests h)
    (pubkey_ne_nil_of_fromStr h)

end EndorsementKey

end MeldaSec
