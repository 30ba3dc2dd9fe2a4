import MeldaSec.Repository
import MeldaSec.Policy.Dsl
import MeldaSec.Lib.Base64
import Mathlib.Data.List.TakeWhile

/-!
# Reference crates

`Crates` leaves the third-party functions open.  This module gives one
instance of them and proves that it has the documented behaviour, so that the
structures of laws are about something, and so that a store can be evaluated.

Delta names, base64 text and JSON text are the real formats, with JSON
strings in the two escapes that the records need and without white space.  A
glob has the wildcard `*` only.  The signature scheme is a stand-in: a
signature is the key followed by the first thirty-two bytes of the message,
and every thirty-two bytes are a verifying key.

The instances are scoped to this namespace.
-/

namespace MeldaSec.Reference

open Rust

/-! ## Delta names -/

/-- `<index>-<digest>`, with a hexadecimal digest. -/
structure Id where
  index : UInt32
  digest : List Char
  digest_ne_nil : digest ≠ []
  digest_lower : ∀ c ∈ digest, Hex.isLower c = true
  deriving DecidableEq

namespace Id

def stem (id : Id) : List Char := Nat.toDigits 10 id.index.toNat ++ '-' :: id.digest

def key (id : Id) : String := String.ofList (id.stem ++ ".delta".toList)

/-- Text behind the digest is ignored, and an index that is not a `u32` makes
the reader panic. -/
def parse (s : String) : Result Id :=
  match s.toList.dropWhile Char.isDigit with
  | '-' :: text =>
    if h : s.toList.takeWhile Char.isDigit ≠ [] ∧ text.takeWhile Hex.isLower ≠ [] then
      let index := Nat.ofDigitChars 10 (s.toList.takeWhile Char.isDigit) 0
      if index < UInt32.size then
        .ok ⟨UInt32.ofNat index, text.takeWhile Hex.isLower, h.2,
          fun _ => List.mem_takeWhile_imp⟩
      else .panic
    else .err "invalid_delta_id"
  | _ => .err "invalid_delta_id"

/-- The written parts are read back, with the suffix and without it. -/
theorem parse_written (id : Id) {tail : List Char} (htail : tail ∈ [[], ".delta".toList])
    {s : String} (hs : s.toList = id.stem ++ tail) : parse s = .ok id := by
  have hdigits : ∀ c ∈ Nat.toDigits 10 id.index.toNat, c.isDigit = true :=
    fun c hc => Nat.isDigit_of_mem_toDigits (by omega) (by omega) hc
  have hstop : tail.takeWhile Hex.isLower = [] := by
    rcases List.mem_pair.mp htail with rfl | rfl <;> decide
  have htake : s.toList.takeWhile Char.isDigit = Nat.toDigits 10 id.index.toNat := by
    rw [hs, stem, List.append_assoc, List.takeWhile_append_of_pos hdigits]
    simp
  have hdrop : s.toList.dropWhile Char.isDigit = '-' :: (id.digest ++ tail) := by
    rw [hs, stem, List.append_assoc, List.dropWhile_append_of_pos hdigits]
    simp
  have htake' : (id.digest ++ tail).takeWhile Hex.isLower = id.digest := by
    rw [List.takeWhile_append_of_pos id.digest_lower, hstop, List.append_nil]
  simp only [parse, hdrop, htake, htake', Nat.ofDigitChars_ten_toDigits]
  rw [dif_pos ⟨Nat.toDigits_ne_nil, id.digest_ne_nil⟩, if_pos id.index.toNat_lt_size]
  simp only [UInt32.ofNat_toNat]

/-- The hyphen that the reader finds is the first one. -/
theorem digest_parse {index digest : List Char} {s : String} {id : Id} (hindex : '-' ∉ index)
    (hdigest : ∀ c ∈ digest, Hex.isLower c = true) (hs : s.toList = index ++ '-' :: digest)
    (h : parse s = .ok id) : id.digest = digest := by
  simp only [parse] at h
  split at h
  · rename_i text htext
    split_ifs at h with hparts hsmall
    obtain rfl := Outcome.ok.inj h
    have hsplit := List.takeWhile_append_dropWhile (p := Char.isDigit) (l := s.toList)
    rw [htext, hs] at hsplit
    have hhyphen : '-' ∉ digest := fun hmem => absurd (hdigest _ hmem) (by decide)
    obtain ⟨-, -, rfl⟩ := (List.append_cons_inj_of_notMem hindex hhyphen).mp hsplit.symm
    exact List.takeWhile_eq_self_iff.mpr hdigest
  · cases h

end Id

/-! ## Signatures -/

/-- The first thirty-two bytes, filled up with zeros. -/
def pad (message : Bytes) : Bytes := (message ++ List.replicate 32 0).take 32

def sign (sk : FixedBytes 32) (message : Bytes) : FixedBytes 64 :=
  ⟨sk.val ++ pad message, by simp [pad, sk.property]⟩

def verify (vk : { _bytes : FixedBytes 32 // true = true }) (message : Bytes)
    (sig : FixedBytes 64) : Bool :=
  decide (sig = sign vk.val message)

/-! ## Text and JSON -/

/-- `str::from_utf8`. -/
def textOf (bytes : Bytes) : Option String := String.fromUTF8? ⟨bytes.toArray⟩

theorem textOf_asBytes (s : String) : textOf (asBytes s) = some s := by
  have hvalid : (⟨(asBytes s).toArray⟩ : ByteArray) = s.toByteArray := by
    rw [asBytes, Array.toArray_toList]
  rw [textOf, hvalid, String.fromUTF8?, dif_pos s.isValidUTF8]
  rfl

/-- The text of a JSON string up to its closing quote. -/
def readString : List Char → Option (List Char × List Char)
  | [] => none
  | '\x22' :: rest => some ([], rest)
  | '\x5c' :: '\x22' :: rest => (readString rest).map fun r => ('\x22' :: r.1, r.2)
  | '\x5c' :: '\x5c' :: rest => (readString rest).map fun r => ('\x5c' :: r.1, r.2)
  | '\x5c' :: _ => none
  | c :: rest => (readString rest).map fun r => (c :: r.1, r.2)

/-- The text of a JSON string with its closing quote. -/
def writeString : List Char → List Char
  | [] => ['\x22']
  | c :: cs =>
    if c = '\x22' ∨ c = '\x5c' then '\x5c' :: c :: writeString cs else c :: writeString cs

theorem readString_writeString (cs rest : List Char) :
    readString (writeString cs ++ rest) = some (cs, rest) := by
  induction cs with
  | nil => rfl
  | cons c cs ih =>
    unfold writeString
    split_ifs with h
    · rcases h with rfl | rfl <;> simp [readString, ih]
    · rw [not_or] at h
      simp [readString, ih, h]

mutual

/-- A JSON value without white space at the head of the text. -/
def readValue : Nat → List Char → Option (Value × List Char)
  | 0, _ => none
  | fuel + 1, cs =>
    match cs with
    | 'n' :: 'u' :: 'l' :: 'l' :: rest => some (.null, rest)
    | '\x22' :: rest => (readString rest).map fun r => (.string (String.ofList r.1), r.2)
    | '[' :: ']' :: rest => some (.array [], rest)
    | '[' :: rest => (readItems fuel rest).map fun r => (.array r.1, r.2)
    | '\x7b' :: '\x7d' :: rest => some (.object [], rest)
    | '\x7b' :: rest => (readEntries fuel rest).map fun r => (.object r.1, r.2)
    | text =>
      let digits := text.takeWhile Char.isDigit
      if digits = [] then none
      else some (.number (.posInt (UInt64.ofNat (Nat.ofDigitChars 10 digits 0))),
        text.dropWhile Char.isDigit)

/-- The items of a JSON array up to its closing bracket. -/
def readItems : Nat → List Char → Option (List Value × List Char)
  | 0, _ => none
  | fuel + 1, cs =>
    match readValue fuel cs with
    | some (item, ',' :: rest) => (readItems fuel rest).map fun r => (item :: r.1, r.2)
    | some (item, ']' :: rest) => some ([item], rest)
    | _ => none

/-- The entries of a JSON object up to its closing brace. -/
def readEntries : Nat → List Char → Option (List (String × Value) × List Char)
  | 0, _ => none
  | fuel + 1, cs =>
    match cs with
    | '\x22' :: text =>
      match readString text with
      | some (name, ':' :: text) =>
        match readValue fuel text with
        | some (value, ',' :: rest) =>
          (readEntries fuel rest).map fun r => ((String.ofList name, value) :: r.1, r.2)
        | some (value, '\x7d' :: rest) => some ([(String.ofList name, value)], rest)
        | _ => none
      | _ => none
    | _ => none

end

/-- `serde_json::from_slice::<Value>`. -/
def valueFromSlice (bytes : Bytes) : Except Error Value :=
  match textOf bytes with
  | none => .error "invalid unicode"
  | some text =>
    match readValue (text.toList.length + 1) text.toList with
    | some (value, []) => .ok value
    | _ => .error "invalid JSON"

/-! ## Values of serialized types -/

def asEntries : Value → Except Error (List (String × Value))
  | .object entries => .ok entries
  | _ => .error "invalid type: expected a map"

def asString : Value → Except Error String
  | .string s => .ok s
  | _ => .error "invalid type: expected a string"

def asU32 : Value → Except Error UInt32
  | .number (.posInt n) =>
    if n.toNat < 2 ^ 32 then .ok (UInt32.ofNat n.toNat) else .error "invalid value: expected u32"
  | _ => .error "invalid type: expected u32"

def asList {T : Type} (item : Value → Except Error T) : Value → Except Error (List T)
  | .array items => items.mapM item
  | _ => .error "invalid type: expected a sequence"

def field (entries : List (String × Value)) (name : String) : Except Error Value :=
  match entries.lookup name with
  | some value => .ok value
  | none => .error ("missing field " ++ name)

/-- A field of type `Option<String>`: it may be missing or null. -/
def optField (entries : List (String × Value)) (name : String) :
    Except Error (Option String) :=
  match entries.lookup name with
  | none => .ok none
  | some .null => .ok none
  | some value => some <$> asString value

def optValue : Option String → Value
  | none => .null
  | some s => .string s

/-- Items that read back one by one read back as a list. -/
theorem mapM_map_eq_ok {T U : Type} {item : U → Except Error T} {write : T → U}
    (h : ∀ x, item (write x) = .ok x) (xs : List T) : (xs.map write).mapM item = .ok xs := by
  induction xs with
  | nil => rfl
  | cons x xs ih =>
    rw [List.map_cons, List.mapM_cons, h, ih]
    rfl

def recordOfValue (value : Value) : Except Error EndorsementRecord := do
  let entries ← asEntries value
  let version ← field entries "version" >>= asU32
  let algorithm ← field entries "algorithm" >>= asString
  let signature ← field entries "signature" >>= asString
  .ok ⟨version, algorithm, signature⟩

/-- An entry of a JSON object, from the text of its value. -/
def writeEntry (name : String) (text : List Char) : List Char :=
  '\x22' :: (writeString name.toList ++ ':' :: text)

/-- The text that `serde_json::to_vec` writes for a record. -/
def writeRecord (r : EndorsementRecord) : List Char :=
  '\x7b' :: (writeEntry "version" (Nat.toDigits 10 r.version.toNat) ++
    ',' :: (writeEntry "algorithm" ('\x22' :: writeString r.algorithm.toList) ++
      ',' :: (writeEntry "signature" ('\x22' :: writeString r.signature.toList) ++ ['\x7d'])))

scoped instance : SerdeSlice EndorsementRecord where
  fromSlice bytes := valueFromSlice bytes >>= recordOfValue
  toVec r := .ok (asBytes (String.ofList (writeRecord r)))

/-- A written number is read up to its last digit. -/
theorem readValue_toDigits (fuel n : Nat) {rest : List Char}
    (hrest : ∀ c ∈ rest.head?, c.isDigit = false) :
    readValue (fuel + 1) (Nat.toDigits 10 n ++ rest)
      = some (.number (.posInt (UInt64.ofNat n)), rest) := by
  have hdigits : ∀ c ∈ Nat.toDigits 10 n, c.isDigit = true :=
    fun c hc => Nat.isDigit_of_mem_toDigits (by omega) (by omega) hc
  have hstop : rest.takeWhile Char.isDigit = [] ∧ rest.dropWhile Char.isDigit = rest := by
    cases rest with
    | nil => exact ⟨rfl, rfl⟩
    | cons c rest => simp [hrest c (by simp)]
  have htake : (Nat.toDigits 10 n ++ rest).takeWhile Char.isDigit = Nat.toDigits 10 n := by
    rw [List.takeWhile_append_of_pos hdigits, hstop.1, List.append_nil]
  have hdrop : (Nat.toDigits 10 n ++ rest).dropWhile Char.isDigit = rest := by
    rw [List.dropWhile_append_of_pos hdigits, hstop.2]
  obtain ⟨d, ds, hd⟩ := List.exists_cons_of_ne_nil (Nat.toDigits_ne_nil (n := n) (b := 10))
  have hhead : d.isDigit = true := hdigits d (by rw [hd]; simp)
  rw [readValue]
  · simp only [htake, hdrop, Nat.ofDigitChars_ten_toDigits, if_neg Nat.toDigits_ne_nil]
  -- No other case of the reader starts with a digit.
  all_goals
    intros
    rename_i heq
    rw [hd] at heq
    obtain ⟨rfl, -⟩ := List.cons.inj heq
    exact absurd hhead (by decide)

theorem readValue_writeString (fuel : Nat) (s : String) (rest : List Char) :
    readValue (fuel + 1) ('\x22' :: writeString s.toList ++ rest) = some (.string s, rest) := by
  simp only [List.cons_append, readValue, readString_writeString, Option.map_some,
    String.ofList_toList]

theorem readEntries_cons {fuel : Nat} {name : String} {text rest : List Char} {value : Value}
    (h : readValue fuel (text ++ ',' :: rest) = some (value, ',' :: rest)) :
    readEntries (fuel + 1) (writeEntry name text ++ ',' :: rest)
      = (readEntries fuel rest).map fun r => ((name, value) :: r.1, r.2) := by
  simp only [writeEntry, List.cons_append, List.append_assoc, readEntries,
    readString_writeString, h, String.ofList_toList]

theorem readEntries_last {fuel : Nat} {name : String} {text rest : List Char} {value : Value}
    (h : readValue fuel (text ++ '\x7d' :: rest) = some (value, '\x7d' :: rest)) :
    readEntries (fuel + 1) (writeEntry name text ++ '\x7d' :: rest)
      = some ([(name, value)], rest) := by
  simp only [writeEntry, List.cons_append, List.append_assoc, readEntries,
    readString_writeString, h, String.ofList_toList]

/-- The value that the text of a record is read as. -/
def recordValue (r : EndorsementRecord) : Value :=
  .object [("version", .number (.posInt (UInt64.ofNat r.version.toNat))),
    ("algorithm", .string r.algorithm), ("signature", .string r.signature)]

theorem readValue_writeRecord (fuel : Nat) (r : EndorsementRecord) :
    readValue (fuel + 5) (writeRecord r) = some (recordValue r, []) := by
  have hentries : readEntries (fuel + 4) (writeRecord r).tail
      = some ([("version", .number (.posInt (UInt64.ofNat r.version.toNat))),
          ("algorithm", .string r.algorithm), ("signature", .string r.signature)], []) := by
    rw [writeRecord, List.tail_cons,
      readEntries_cons (readValue_toDigits _ _ (by simp)),
      readEntries_cons (readValue_writeString _ _ _),
      readEntries_last (readValue_writeString _ _ _)]
    rfl
  obtain ⟨text, htext⟩ : ∃ text, writeRecord r = '\x7b' :: '\x22' :: text := ⟨_, rfl⟩
  rw [htext, List.tail_cons] at hentries
  rw [htext, readValue, hentries]
  · rfl
  · simp

theorem recordOfValue_recordValue (r : EndorsementRecord) :
    recordOfValue (recordValue r) = .ok r := by
  have hversion := r.version.toNat_lt
  have hmod : (UInt64.ofNat r.version.toNat).toNat = r.version.toNat := by
    rw [UInt64.toNat_ofNat', Nat.mod_eq_of_lt (by omega)]
  have hu32 : asU32 (.number (.posInt (UInt64.ofNat r.version.toNat))) = .ok r.version := by
    rw [asU32, hmod, if_pos hversion, UInt32.ofNat_toNat]
  have hfield : recordOfValue (recordValue r) = (do
      let version ← asU32 (.number (.posInt (UInt64.ofNat r.version.toNat)))
      .ok ⟨version, r.algorithm, r.signature⟩) := rfl
  rw [hfield, hu32]
  rfl

/-- A record reads back from its text. -/
theorem valueFromSlice_writeRecord (r : EndorsementRecord) :
    valueFromSlice (asBytes (String.ofList (writeRecord r))) = .ok (recordValue r) := by
  have hlength : 4 ≤ (writeRecord r).length := by
    simp only [writeRecord, writeEntry, List.length_cons, List.length_append]
    omega
  obtain ⟨fuel, hfuel⟩ := Nat.exists_eq_add_of_le' hlength
  simp only [valueFromSlice, textOf_asBytes, String.toList_ofList, hfuel,
    readValue_writeRecord fuel r]

/-! ## The configuration -/

def listValue (items : List String) : Value := .array (items.map .string)

scoped instance : SerdeValue KeyStoreConfig where
  fromValue value := do
    let entries ← asEntries value
    let keys ← field entries "keys" >>= asList fun item => do
      let entry ← asEntries item
      let pubkey ← field entry "pubkey" >>= asString
      let role ← optField entry "role"
      .ok (⟨pubkey, role⟩ : KeyEntry)
    .ok ⟨keys⟩
  toValue config := .ok (.object [("keys", .array (config.keys.map fun key =>
    .object [("pubkey", .string key.pubkey), ("role", optValue key.role)]))])

scoped instance : SerdeValue DeltaFilterConfig where
  fromValue value := do
    let entries ← asEntries value
    let whitelist ← field entries "whitelist" >>= asList asString
    let blacklist ← field entries "blacklist" >>= asList asString
    .ok ⟨whitelist, blacklist⟩
  toValue config := .ok (.object [("whitelist", listValue config.whitelist),
    ("blacklist", listValue config.blacklist)])

def asEffect (value : Value) : Except Error RuleEffect := do
  match ← asString value with
  | "Allow" => .ok .allow
  | "Deny" => .ok .deny
  | _ => .error "unknown variant"

def effectName : RuleEffect → String
  | .allow => "Allow"
  | .deny => "Deny"

scoped instance : SerdeValue PolicyEngineConfig where
  fromValue value := do
    let entries ← asEntries value
    let rules ← field entries "rules" >>= asList fun item => do
      let entry ← asEntries item
      let effect ← field entry "effect" >>= asEffect
      let key ← optField entry "key"
      let role ← optField entry "role"
      let objects ← field entry "objects" >>= asString
      .ok (⟨effect, key, role, objects⟩ : PolicyRuleDef)
    .ok ⟨rules⟩
  toValue config := .ok (.object [("rules", .array (config.rules.map fun rule =>
    .object [("effect", .string (effectName rule.effect)), ("key", optValue rule.key),
      ("role", optValue rule.role), ("objects", .string rule.objects)]))])

def asMode (value : Value) : Except Error EndorsementMode := do
  match ← asString value with
  | "Permissive" => .ok .permissive
  | "Single" => .ok .single
  | "Majority" => .ok .majority
  | "Unanimous" => .ok .unanimous
  | _ => .error "unknown variant"

def modeName : EndorsementMode → String
  | .permissive => "Permissive"
  | .single => "Single"
  | .majority => "Majority"
  | .unanimous => "Unanimous"

scoped instance : SerdeValue TrustConfiguration where
  fromValue value := do
    let entries ← asEntries value
    let endorsementMode ← field entries "endorsement_mode" >>= asMode
    let keystore ← field entries "keystore"
    let deltaFilter ← field entries "delta_filter"
    let policy ← field entries "policy"
    .ok ⟨endorsementMode, keystore, deltaFilter, policy⟩
  toValue config := .ok (.object [("endorsement_mode", .string (modeName config.endorsementMode)),
    ("keystore", config.keystore), ("delta_filter", config.deltaFilter),
    ("policy", config.policy)])

/-! ## Policy documents -/

def ruleDefOfValue (value : Value) : Except Error RuleDef := do
  let entries ← asEntries value
  let key ← optField entries "key"
  let role ← optField entries "role"
  let objects ← field entries "objects" >>= asString
  .ok ⟨key, role, objects⟩

def optRuleDef (entries : List (String × Value)) (name : String) :
    Except Error (Option RuleDef) :=
  match entries.lookup name with
  | none => .ok none
  | some .null => .ok none
  | some value => some <$> ruleDefOfValue value

/-- Documents in the part of YAML that is JSON. -/
scoped instance : SerdeYaml PolicyFile where
  fromStr yaml :=
    match readValue (yaml.toList.length + 1) yaml.toList with
    | some (value, []) => do
      let entries ← asEntries value
      let rules ← field entries "rules" >>= asList fun item => do
        let entry ← asEntries item
        let allow ← optRuleDef entry "allow"
        let deny ← optRuleDef entry "deny"
        .ok (⟨allow, deny⟩ : RawRule)
      .ok ⟨rules⟩
    | _ => .error "invalid YAML"

/-! ## Globs -/

/-- The wildcard matches any text, and every other character itself. -/
def globMatches : List Char → List Char → Bool
  | [], text => text.isEmpty
  | '*' :: glob, text => text.tails.any (globMatches glob)
  | c :: glob, d :: text => c == d && globMatches glob text
  | _ :: _, [] => false

/-! ## The instance -/

scoped instance crates : Crates where
  overflowChecks := false
  DeltaId := Id
  deltaIdDecEq := inferInstance
  deltaIdKey := Id.key
  deltaIdDigest id := String.ofList id.digest
  deltaIdFrom := Id.parse
  isPoint _ := true
  pointError := "Cannot decompress Edwards point"
  verifyingKey sk := ⟨sk, rfl⟩
  sign := sign
  verify := verify
  base64Encode := Base64.encode
  base64Decode s :=
    match Base64.decode s with
    | some bytes => .ok bytes
    | none => .error "Invalid symbol"
  valueFromSlice := valueFromSlice
  Glob := List Char
  GlobSet := List (List Char)
  globNew pattern :=
    if pattern.toList.any fun c => c ∈ "?[]\x7b\x7d\\".toList then .error "unsupported glob"
    else .ok pattern.toList
  globSetBuild globs := .ok globs
  globSetIsMatch globs text := globs.any fun glob => globMatches glob text.toList
  isUnicodeDigit c := c.isDigit

theorem key_eq (id : Id) : DeltaId.key id = id.key := rfl

theorem digest_eq (id : Id) : DeltaId.digest id = String.ofList id.digest := rfl

theorem fromStr_eq (s : String) : DeltaId.fromStr s = Id.parse s := rfl

theorem fromKeyLaw : FromKeyLaw := fun id => Id.parse_written id (by simp) String.toList_ofList

theorem deltaIdLaws : DeltaIdLaws where
  key_eq id := by
    refine ⟨String.ofList (Nat.toDigits 10 id.index.toNat), ⟨?_, ?_⟩, ?_⟩
    · simp
    · intro c hc
      rw [String.toList_ofList] at hc
      exact Nat.isDigit_of_mem_toDigits (by omega) (by omega) hc
    · apply String.toList_inj.mp
      simp [key_eq, digest_eq, Id.key, Id.stem]
  fromStr_key id _ := fromKeyLaw id
  fromStr_stem id stem _ hstem := by
    have htail : ([] : List Char) ∈ [[], ".delta".toList] := by simp
    rw [fromStr_eq]
    refine Id.parse_written id htail ?_
    have hlist := congrArg String.toList hstem
    rw [key_eq, Id.key, String.toList_ofList, String.toList_append] at hlist
    rw [List.append_nil, List.append_cancel_right hlist]

theorem digitLaw : DigitLaw := fun _ _ => rfl

theorem digestLaw : EndorsementKey.DigestLaw := by
  intro index digest pubkey id hparts h
  have hindex : '-' ∉ index := fun hmem => by
    have := hparts.index_char '-' hmem
    simp [EndorsementKey.isIndexChar_hyphen digitLaw] at this
  have hid : Id.digest id = digest :=
    Id.digest_parse hindex hparts.digest_lower String.toList_ofList h
  rw [digest_eq, hid]

theorem signatureLaw : SignatureLaw := fun _ _ => decide_eq_true rfl

theorem base64Law : Base64Law := by
  intro bytes
  simp only [Crates.base64Decode, Crates.base64Encode, Base64.decode_encode]

theorem serdeSliceLaw : SerdeSliceLaw EndorsementRecord := by
  intro r
  refine ⟨_, rfl, ?_⟩
  have hread : SerdeSlice.fromSlice (T := EndorsementRecord)
      (asBytes (String.ofList (writeRecord r))) = (do
        let value ← valueFromSlice (asBytes (String.ofList (writeRecord r)))
        recordOfValue value) := rfl
  rw [hread, valueFromSlice_writeRecord]
  exact recordOfValue_recordValue r

/-! ## Stores -/

/-- The store with these objects. -/
def storeOf : List (String × Bytes) → MemoryMap
  | [] => MemoryMap.new
  | (name, bytes) :: objects => ⟨(storeOf objects).entries.insert name bytes⟩

theorem objects_storeOf (objects : List (String × Bytes)) (name : String) :
    MapAdapter.objects (storeOf objects) name = objects.lookup name := by
  induction objects with
  | nil => rfl
  | cons object objects ih =>
    obtain ⟨other, bytes⟩ := object
    by_cases h : name = other
    · subst h
      rw [List.lookup_cons_self]
      exact AList.lookup_insert _
    · rw [List.lookup_cons, beq_eq_false_iff_ne.mpr h, ← ih]
      exact AList.lookup_insert_ne h

/-- The object that `sk` writes to endorse the delta. -/
def endorsementObject (sk : SigningKey) (id : DeltaId) : String × Bytes :=
  ((TrustAdapter.ownEndorsementKey sk id).fileName,
    asBytes (String.ofList (writeRecord (TrustAdapter.signedRecord sk id))))

/-- A store with some objects and some endorsements. -/
def repository (objects : List (String × Bytes)) (signed : List (SigningKey × DeltaId)) :
    MemoryMap :=
  storeOf (objects ++ signed.map fun call => endorsementObject call.1 call.2)

/-- Such a store has exactly the given endorsements. -/
theorem endorsedExactly_repository {objects : List (String × Bytes)}
    {signed : List (SigningKey × DeltaId)}
    (hobjects : ∀ object ∈ objects, endsWith object.1 ".sig" = false)
    (hsigned : ∀ call ∈ signed, IsLowerHex call.2.digest) :
    EndorsedExactly (repository objects signed) fun sk id => (sk, id) ∈ signed where
  written name bytes hobj hsuffix := by
    rw [repository, objects_storeOf, List.lookup_eq_some_iff] at hobj
    obtain ⟨before, after, hsplit, -⟩ := hobj
    have hmem : (name, bytes) ∈ before ++ (name, bytes) :: after := by simp
    rw [← hsplit, List.mem_append, List.mem_map] at hmem
    rcases hmem with hmem | ⟨⟨sk, id⟩, hcall, heq⟩
    · simp [hobjects _ hmem] at hsuffix
    · obtain ⟨rfl, rfl⟩ := Prod.mk.inj heq
      exact ⟨sk, id, hcall, rfl, rfl⟩
  present sk id hcall := by
    rw [repository, objects_storeOf, ← Option.isSome_iff_exists, List.lookup_isSome_iff]
    exact ⟨endorsementObject sk id,
      List.mem_append_right _ (List.mem_map.mpr ⟨(sk, id), hcall, rfl⟩), beq_self_eq_true _⟩
  lowerHex sk id hcall := hsigned (sk, id) hcall

/-! ## A small configuration -/

theorem eq_a_of_mem {c : Char} (h : c ∈ ['a', 'a']) : c = 'a' := by
  rcases List.mem_pair.mp h with rfl | rfl <;> rfl

/-- `<index>-aa`. -/
def sampleDelta (index : Nat) : DeltaId :=
  (⟨UInt32.ofNat index, ['a', 'a'], by simp, fun _ hc => by rw [eq_a_of_mem hc]; rfl⟩ : Id)

theorem isLowerHex_sampleDelta (index : Nat) : IsLowerHex (sampleDelta index).digest := by
  have hchars : (sampleDelta index).digest.toList = ['a', 'a'] := String.toList_ofList
  rw [IsLowerHex, hchars]
  exact ⟨by simp, fun _ hc => by rw [eq_a_of_mem hc]; rfl⟩

def sampleKey (byte : UInt8) : SigningKey := ⟨List.replicate 32 byte, List.length_replicate⟩

/-- A delta that creates the object `x`. -/
def sampleData : Bytes := asBytes "\x7b\x22c\x22:[[\x22x\x22]]\x7d"

/-- One rule that allows everything. -/
def allowAll : PolicyEngine := ⟨[⟨none, none, [['*']], "*", .allow⟩], true⟩

theorem allows_allowAll (ks : KeyStore) (pubkey : Bytes) (objectId : String) :
    allowAll.allows ks pubkey objectId = true := by
  have hglob : globMatches ['*'] objectId.toList = true := by
    rw [globMatches, List.any_eq_true]
    exact ⟨[], by simp, rfl⟩
  simp [PolicyEngine.allows, allowAll, PolicyEngine.matchRule, Crates.globSetIsMatch, hglob]

/-- Some trusted keys, empty lists, and a policy that allows everything. -/
def sampleAdapter (mode : EndorsementMode) (trusted : Finset VerifyingKey)
    (store : MemoryMap) : TrustAdapter MemoryMap :=
  ⟨store, ⟨none, trusted, ∅⟩, DeltaFilter.new, allowAll, mode⟩

theorem authorises_sampleAdapter (mode : EndorsementMode) (trusted : Finset VerifyingKey)
    (store : MemoryMap) (data : Bytes) (vk : VerifyingKey) :
    (sampleAdapter mode trusted store).Authorises data vk :=
  fun objectId _ => allows_allowAll _ _ objectId

theorem endsWith_key (id : DeltaId) : endsWith id.key ".delta" = true :=
  endsWith_iff.mpr ⟨String.ofList (Id.stem id), String.toList_inj.mp (by simp [key_eq, Id.key])⟩

/-- A stored delta that enough trusted keys have signed is read. -/
theorem readObject_of_signed {mode : EndorsementMode} {trusted : Finset VerifyingKey}
    {store : MemoryMap} {signed : SigningKey → DeltaId → Prop}
    (hexactly : EndorsedExactly store signed) {id : DeltaId} {data : Bytes}
    (hobject : MapAdapter.objects store id.key = some data) (signers : List SigningKey)
    (hsigned : ∀ sk ∈ signers, signed sk id)
    (htrusted : ∀ sk ∈ signers, SigningKey.verifyingKey sk ∈ trusted)
    (hrule : mode.rule (signers.map SigningKey.verifyingKey).toFinset.card trusted.card) :
    (sampleAdapter mode trusted store).readObject id.key 0 0 = .ok data := by
  have hsigner : ∀ vk ∈ (signers.map SigningKey.verifyingKey).toFinset,
      ∃ sk ∈ signers, SigningKey.verifyingKey sk = vk := by
    intro vk hvk
    exact List.mem_map.mp (List.mem_toFinset.mp hvk)
  rw [TrustAdapter.readObject_of_fromStr (endsWith_key id) (fromKeyLaw id)]
  refine ⟨MapAdapter.readObject_some hobject, ?_⟩
  apply hexactly.admits_of_signed deltaIdLaws digitLaw signatureLaw base64Law serdeSliceLaw
    (t := sampleAdapter mode trusted store) rfl rfl _ hrule
  · intro vk hvk
    obtain ⟨sk, hsk, hkey⟩ := hsigner vk hvk
    exact ⟨⟨sk, hsigned sk hsk, hkey⟩, authorises_sampleAdapter mode trusted _ data vk⟩
  · intro vk hvk
    obtain ⟨sk, hsk, hkey⟩ := hsigner vk hvk
    rw [← hkey]
    exact htrusted sk hsk

/-- A stored delta that every trusted key has signed is read in every mode. -/
theorem readObject_repository {mode : EndorsementMode} {trusted : Finset VerifyingKey}
    {objects : List (String × Bytes)} {signed : List (SigningKey × DeltaId)} {id : DeltaId}
    {data : Bytes} (hobjects : ∀ object ∈ objects, endsWith object.1 ".sig" = false)
    (hsigned : ∀ call ∈ signed, IsLowerHex call.2.digest)
    (hobject : objects.lookup id.key = some data) (hkeys : 0 < trusted.card)
    (hall : ∀ vk ∈ trusted, SignedBy (fun sk id => (sk, id) ∈ signed) id vk) :
    (sampleAdapter mode trusted (repository objects signed)).readObject id.key 0 0
      = .ok data := by
  have hstored : MapAdapter.objects (repository objects signed) id.key = some data := by
    rw [repository, objects_storeOf, List.lookup_append, hobject, Option.some_or]
  refine (TrustAdapter.readObject_of_fromStr (endsWith_key id) (fromKeyLaw id)).mpr
    ⟨MapAdapter.readObject_some hstored, ?_⟩
  exact (endorsedExactly_repository hobjects hsigned).admits_of_all_signed deltaIdLaws digitLaw
    signatureLaw base64Law serdeSliceLaw rfl rfl hkeys
    fun vk hvk => ⟨hall vk hvk, authorises_sampleAdapter mode trusted _ data vk⟩

/-- Two deltas with one digest, and the one trusted key has signed both. -/
def sampleStore : MemoryMap :=
  repository [((sampleDelta 1).key, sampleData), ((sampleDelta 2).key, sampleData)]
    [(sampleKey 1, sampleDelta 1), (sampleKey 1, sampleDelta 2)]

theorem endorsedExactly_sampleStore :
    EndorsedExactly sampleStore fun sk id =>
      (sk, id) ∈ [(sampleKey 1, sampleDelta 1), (sampleKey 1, sampleDelta 2)] := by
  refine endorsedExactly_repository (by decide) fun call hcall => ?_
  rcases List.mem_pair.mp hcall with rfl | rfl <;> exact isLowerHex_sampleDelta _

def sampleTrust (mode : EndorsementMode) : TrustAdapter MemoryMap :=
  sampleAdapter mode {(sampleKey 1).verifyingKey} sampleStore

theorem readObject_sampleTrust (mode : EndorsementMode) {index : Nat}
    (hindex : index = 1 ∨ index = 2) :
    (sampleTrust mode).readObject (sampleDelta index).key 0 0 = .ok sampleData := by
  refine readObject_repository (by decide) (fun call => endorsedExactly_sampleStore.lowerHex _ _)
    ?_ (by decide) ?_
  · rcases hindex with rfl | rfl <;> decide
  · intro vk hvk
    obtain rfl := Finset.mem_singleton.mp hvk
    refine ⟨sampleKey 1, ?_, rfl⟩
    rcases hindex with rfl | rfl <;> simp

end MeldaSec.Reference
