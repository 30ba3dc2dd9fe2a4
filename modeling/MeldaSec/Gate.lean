import MeldaSec.Endorsements
import MeldaSec.Lib.Quorum
import Mathlib.Algebra.Order.BigOperators.Group.Finset
import Mathlib.Algebra.BigOperators.Ring.Finset

/-!
# What the gate decides

The gate of `readObject` counts byte strings in two passes.  This module
restates its decision over the trusted keys.  `authorisedEndorsers` is the set
of trusted keys that endorse the delta and that the policy allows on every
object of the delta, and `Admits` says when a delta gets through: it is not
blacklisted, and it is whitelisted, or nothing is asked of it, or the scan is
clean and the authorised endorsers are enough.

`gate` is the part of `readObject` behind the read of the object.  Both of its
counts are cardinalities of sets of trusted keys (`card_valid`,
`allowedEndorsers_eq`), and the second set is part of the first, so the
second count decides alone.
-/

namespace MeldaSec

open Rust

variable [Crates]

/-- The voting rule of a mode. -/
def EndorsementMode.rule : EndorsementMode → Quorum.Rule
  | .permissive => Quorum.always
  | .single => Quorum.atLeastOne
  | .majority => Quorum.majority
  | .unanimous => Quorum.unanimity

omit [Crates] in
/-- The test of the code is the voting rule of the mode. -/
theorem EndorsementMode.enough_iff {mode : EndorsementMode} {count trustedCount : Nat} :
    mode.enough count trustedCount = true ↔ mode.rule count trustedCount := by
  cases mode with
  | permissive => simp [EndorsementMode.enough, EndorsementMode.rule, Quorum.always]
  | single =>
    simp [EndorsementMode.enough, EndorsementMode.rule, Quorum.atLeastOne, Nat.one_le_iff_ne_zero,
      Nat.pos_iff_ne_zero]
  | majority =>
    simp only [EndorsementMode.enough, EndorsementMode.rule, Quorum.majority]
    split_ifs with h
    · simp [h]
    · rw [decide_eq_true_eq]
      omega
  | unanimous => simp [EndorsementMode.enough, EndorsementMode.rule, Quorum.unanimity]

omit [Crates] in
theorem EndorsementMode.rule_monotone (mode : EndorsementMode) : mode.rule.Monotone := by
  cases mode with
  | permissive => exact Quorum.always_monotone
  | single => exact Quorum.atLeastOne_monotone
  | majority => exact Quorum.majority_monotone
  | unanimous => exact Quorum.unanimity_monotone

omit [Crates] in
/-- Every mode but the permissive one asks for a voter, when there is one. -/
theorem EndorsementMode.one_le_of_rule (mode : EndorsementMode) (hmode : mode ≠ .permissive)
    {count size : Nat} (hsize : 0 < size) (h : mode.rule count size) : 1 ≤ count := by
  cases mode with
  | permissive => exact absurd rfl hmode
  | single => exact h
  | majority => exact Quorum.atLeastOne_of_majority h
  | unanimous => exact Quorum.atLeastOne_of_majority (Quorum.majority_of_unanimity h hsize)

namespace TrustAdapter

variable {A : Type}

/-- The policy allows the key on every object that the delta touches. -/
def Authorises (t : TrustAdapter A) (data : Bytes) (vk : VerifyingKey) : Prop :=
  ∀ id ∈ extractCreatedAndModifiedObjectIds data,
    t.policy.allows t.keystore vk.toBytes id = true

/-- The delta is subject to the endorsement mode: it is on neither list, and
the mode asks for endorsements. -/
def Gated (t : TrustAdapter A) (deltaId : DeltaId) : Prop :=
  t.deltaFilter.isBlacklisted deltaId = false ∧ t.deltaFilter.isWhitelisted deltaId = false ∧
    t.endorsementMode ≠ .permissive

variable [Adapter A] [SerdeSlice EndorsementRecord]

open Classical in
/-- The trusted keys that endorse the delta. -/
noncomputable def validEndorsers (t : TrustAdapter A) (deltaId : DeltaId) :
    Finset VerifyingKey :=
  t.keystore.trustedKeys.filter fun vk => Endorses t.inner deltaId vk

open Classical in
/-- The trusted keys that endorse the delta and may do so. -/
noncomputable def authorisedEndorsers (t : TrustAdapter A) (deltaId : DeltaId) (data : Bytes) :
    Finset VerifyingKey :=
  t.keystore.trustedKeys.filter fun vk => Endorses t.inner deltaId vk ∧ t.Authorises data vk

/-- The delta with these bytes gets through the gate. -/
def Admits (t : TrustAdapter A) (deltaId : DeltaId) (data : Bytes) : Prop :=
  t.deltaFilter.isBlacklisted deltaId = false ∧
    (t.Gated deltaId →
      Adapter.listObjects t.inner ".sig" ≠ .panic ∧ CleanScan t.inner deltaId ∧
        t.endorsementMode.rule (t.authorisedEndorsers deltaId data).card
          t.keystore.trustedKeyCount)

/-! ## The two counts -/

theorem mem_authorisedEndorsers {t : TrustAdapter A} {deltaId : DeltaId} {data : Bytes}
    {vk : VerifyingKey} :
    vk ∈ t.authorisedEndorsers deltaId data ↔
      vk ∈ t.keystore.trustedKeys ∧ Endorses t.inner deltaId vk ∧ t.Authorises data vk := by
  classical
  rw [authorisedEndorsers, Finset.mem_filter]

theorem authorisedEndorsers_subset_trustedKeys (t : TrustAdapter A) (deltaId : DeltaId)
    (data : Bytes) : t.authorisedEndorsers deltaId data ⊆ t.keystore.trustedKeys := by
  classical
  exact Finset.filter_subset _ _

theorem card_authorisedEndorsers_le (t : TrustAdapter A) (deltaId : DeltaId) (data : Bytes) :
    (t.authorisedEndorsers deltaId data).card ≤ t.keystore.trustedKeyCount :=
  Finset.card_le_card (authorisedEndorsers_subset_trustedKeys t deltaId data)

/-- The authorised endorsers are the valid ones that the policy allows. -/
theorem authorisedEndorsers_eq_filter (t : TrustAdapter A) (deltaId : DeltaId) (data : Bytes)
    [DecidablePred (t.Authorises data)] :
    t.authorisedEndorsers deltaId data
      = (t.validEndorsers deltaId).filter (t.Authorises data) := by
  classical
  ext vk
  rw [mem_authorisedEndorsers, Finset.mem_filter, validEndorsers, Finset.mem_filter, and_assoc]

/-- The valid set of a scan holds the encodings of the valid endorsers. -/
theorem valid_eq_image {t : TrustAdapter A} {deltaId : DeltaId}
    {result : EndorsementFetchResult} (h : t.fetchEndorsements deltaId = .ok result) :
    result.valid = (t.validEndorsers deltaId).image VerifyingKey.toBytes := by
  ext pk
  rw [mem_valid_iff h, Finset.mem_image]
  simp only [validEndorsers, Finset.mem_filter]
  constructor
  · intro ⟨vk, htrusted, hpk, hendorses⟩
    exact ⟨vk, ⟨htrusted, hendorses⟩, hpk⟩
  · intro ⟨vk, ⟨htrusted, hendorses⟩, hpk⟩
    exact ⟨vk, htrusted, hpk, hendorses⟩

theorem card_valid {t : TrustAdapter A} {deltaId : DeltaId}
    {result : EndorsementFetchResult} (h : t.fetchEndorsements deltaId = .ok result) :
    result.valid.card = (t.validEndorsers deltaId).card := by
  rw [valid_eq_image h,
    Finset.card_image_of_injective _ fun _ _ => VerifyingKey.toBytes_injective]

omit [SerdeSlice EndorsementRecord] [Adapter A] in
/-- The inner count of the policy pass compares against the number of ids. -/
theorem length_filter_allows_iff {t : TrustAdapter A} {data : Bytes} {vk : VerifyingKey} :
    ((extractCreatedAndModifiedObjectIds data).filter fun id =>
        t.policy.allows t.keystore vk.toBytes id).length
      = (extractCreatedAndModifiedObjectIds data).length ↔ t.Authorises data vk :=
  List.length_filter_eq_length_iff

/-- The second count is the number of authorised endorsers. -/
theorem allowedEndorsers_eq {t : TrustAdapter A} {deltaId : DeltaId}
    {result : EndorsementFetchResult} (h : t.fetchEndorsements deltaId = .ok result)
    (data : Bytes) :
    t.allowedEndorsers result data = (t.authorisedEndorsers deltaId data).card := by
  classical
  rw [allowedEndorsers, valid_eq_image h,
    Finset.sum_image fun _ _ _ _ => VerifyingKey.toBytes_injective]
  simp only [length_filter_allows_iff]
  rw [Finset.sum_boole, Nat.cast_id, authorisedEndorsers_eq_filter]

/-- The first count is at least the second one. -/
theorem card_authorisedEndorsers_le_valid {t : TrustAdapter A} {deltaId : DeltaId}
    {result : EndorsementFetchResult} (h : t.fetchEndorsements deltaId = .ok result)
    (data : Bytes) :
    (t.authorisedEndorsers deltaId data).card ≤ result.valid.card := by
  classical
  rw [card_valid h, authorisedEndorsers_eq_filter]
  exact Finset.card_filter_le _ _

theorem card_valid_le {t : TrustAdapter A} {deltaId : DeltaId}
    {result : EndorsementFetchResult} (h : t.fetchEndorsements deltaId = .ok result) :
    result.valid.card ≤ t.keystore.trustedKeyCount := by
  classical
  rw [card_valid h]
  exact Finset.card_filter_le _ _

/-! ## The decision -/

/-- What a whole read of a delta does with the bytes of the object. -/
def gate (t : TrustAdapter A) (deltaId : DeltaId) (data : Bytes) : Result Bytes :=
  if t.deltaFilter.isBlacklisted deltaId then .err "blacklisted_object_key"
  else if t.deltaFilter.isWhitelisted deltaId || t.endorsementMode == .permissive then .ok data
  else do
    let endorsements ← t.fetchEndorsements deltaId
    if !t.endorsementMode.enough endorsements.valid.card t.keystore.trustedKeyCount then
      .err "missing_or_insufficient_endorsements"
    else if !t.endorsementMode.enough (t.allowedEndorsers endorsements data)
        t.keystore.trustedKeyCount then
      .err "not_allowed_by_policy"
    else .ok data

/-- A whole read of a delta reads the object, parses the name and runs the gate. -/
theorem readObject_whole (t : TrustAdapter A) {key : String}
    (hkey : endsWith key ".delta" = true) :
    t.readObject key 0 0 = (do
      let data ← Adapter.readObject t.inner key 0 0
      match DeltaId.fromStr key with
      | .panic => .panic
      | .err _ => .err "invalid delta"
      | .ok deltaId => t.gate deltaId data) := by
  simp only [readObject, hkey, gate]
  rfl

omit [Adapter A] [SerdeSlice EndorsementRecord] in
theorem gated_iff {t : TrustAdapter A} {deltaId : DeltaId}
    (hblack : t.deltaFilter.isBlacklisted deltaId = false) :
    t.Gated deltaId ↔
      (t.deltaFilter.isWhitelisted deltaId || t.endorsementMode == .permissive) = false := by
  rw [Gated, Bool.or_eq_false_iff, beq_eq_false_iff_ne]
  exact ⟨fun h => h.2, fun h => ⟨hblack, h⟩⟩

/-- The gate opens for exactly the admitted deltas, and returns their bytes. -/
theorem gate_eq_ok_iff {t : TrustAdapter A} {deltaId : DeltaId} {data out : Bytes} :
    t.gate deltaId data = .ok out ↔ out = data ∧ t.Admits deltaId data := by
  rw [gate, Admits]
  by_cases hblack : t.deltaFilter.isBlacklisted deltaId = true
  · simp [hblack]
  rw [Bool.not_eq_true] at hblack
  rw [if_neg (by simp [hblack]), gated_iff hblack]
  by_cases hopen : (t.deltaFilter.isWhitelisted deltaId || t.endorsementMode == .permissive) = true
  · simp [hopen, hblack, eq_comm]
  rw [if_neg hopen]
  rw [Bool.not_eq_true] at hopen
  simp only [Outcome.bind_eq_ok_iff, hblack, hopen, true_and, forall_const]
  constructor
  · intro ⟨endorsements, hfetch, h⟩
    have hscan := exists_fetchEndorsements_iff.mp ⟨endorsements, hfetch⟩
    split_ifs at h with hvalid hallowed
    obtain rfl := Outcome.ok.inj h
    rw [Bool.not_eq_true, Bool.not_eq_false', EndorsementMode.enough_iff,
      allowedEndorsers_eq hfetch] at hallowed
    exact ⟨rfl, hscan.1, hscan.2, hallowed⟩
  · rintro ⟨rfl, hlist, hclean, hquorum⟩
    obtain ⟨endorsements, hfetch⟩ := exists_fetchEndorsements_iff.mpr ⟨hlist, hclean⟩
    refine ⟨endorsements, hfetch, ?_⟩
    -- The valid endorsers are more than the authorised ones, so they are enough as well.
    have hvalid := t.endorsementMode.rule_monotone
      (card_authorisedEndorsers_le_valid hfetch out) (card_valid_le hfetch) hquorum
    rw [← allowedEndorsers_eq hfetch] at hquorum
    rw [EndorsementMode.enough_iff.mpr hvalid, EndorsementMode.enough_iff.mpr hquorum]
    rfl

/-- Over a store that does not panic itself, the gate panics exactly when it
asks for endorsements and the scan derails. -/
theorem gate_eq_panic_iff {t : TrustAdapter A} {deltaId : DeltaId} {data : Bytes}
    (hlist : Adapter.listObjects t.inner ".sig" ≠ .panic)
    (hread : ∀ n, Adapter.readObject t.inner n 0 0 ≠ .panic) :
    t.gate deltaId data = .panic ↔ t.Gated deltaId ∧ Derails t.inner deltaId := by
  unfold gate
  by_cases hblack : t.deltaFilter.isBlacklisted deltaId = true
  · simp [hblack, Gated]
  rw [Bool.not_eq_true] at hblack
  rw [if_neg (by simp [hblack]), gated_iff hblack]
  by_cases hopen : (t.deltaFilter.isWhitelisted deltaId || t.endorsementMode == .permissive) = true
  · simp [hopen]
  rw [if_neg hopen, Outcome.bind_eq_panic_iff, fetchEndorsements_eq_panic_iff hlist hread,
    Bool.eq_false_iff.mpr hopen]
  constructor
  · rintro (h | ⟨endorsements, -, h⟩)
    · exact ⟨rfl, h⟩
    · split_ifs at h
  · rintro ⟨-, h⟩
    exact Or.inl h

/-- A whole read of a delta returns the stored bytes of an admitted delta. -/
theorem readObject_eq_ok_iff {t : TrustAdapter A} {key : String}
    (hkey : endsWith key ".delta" = true) {data : Bytes} :
    t.readObject key 0 0 = .ok data ↔
      Adapter.readObject t.inner key 0 0 = .ok data ∧
        ∃ deltaId, DeltaId.fromStr key = .ok deltaId ∧ t.Admits deltaId data := by
  rw [readObject_whole t hkey, Outcome.bind_eq_ok_iff]
  cases hid : DeltaId.fromStr key with
  | panic => simp
  | err e => simp
  | ok deltaId =>
    simp only [gate_eq_ok_iff, Outcome.ok.injEq, exists_eq_left']
    constructor
    · rintro ⟨data', hread, rfl, hadmits⟩
      exact ⟨hread, hadmits⟩
    · intro ⟨hread, hadmits⟩
      exact ⟨data, hread, rfl, hadmits⟩

/-- A whole read of a delta with a known id. -/
theorem readObject_of_fromStr {t : TrustAdapter A} {key : String}
    (hkey : endsWith key ".delta" = true) {deltaId : DeltaId}
    (hid : DeltaId.fromStr key = .ok deltaId) {data : Bytes} :
    t.readObject key 0 0 = .ok data ↔
      Adapter.readObject t.inner key 0 0 = .ok data ∧ t.Admits deltaId data := by
  simp only [readObject_eq_ok_iff hkey, hid, Outcome.ok.injEq, exists_eq_left']

/-- A gated delta that is read has enough authorised endorsers. -/
theorem rule_of_readObject {t : TrustAdapter A} {key : String}
    (hkey : endsWith key ".delta" = true) {deltaId : DeltaId}
    (hid : DeltaId.fromStr key = .ok deltaId) (hgated : t.Gated deltaId) {data : Bytes}
    (hread : t.readObject key 0 0 = .ok data) :
    t.endorsementMode.rule (t.authorisedEndorsers deltaId data).card
      t.keystore.trustedKeyCount := by
  obtain ⟨-, -, hgate⟩ := (readObject_of_fromStr hkey hid).mp hread
  exact (hgate hgated).2.2

/-- Over a store that does not panic itself, a whole read of a delta panics
exactly when the delta is stored and the parser of its name panics, or it is
gated and the scan derails. -/
theorem readObject_eq_panic_iff {t : TrustAdapter A} {key : String}
    (hkey : endsWith key ".delta" = true)
    (hlist : Adapter.listObjects t.inner ".sig" ≠ .panic)
    (hread : ∀ n, Adapter.readObject t.inner n 0 0 ≠ .panic) :
    t.readObject key 0 0 = .panic ↔
      (∃ data, Adapter.readObject t.inner key 0 0 = .ok data) ∧
        (DeltaId.fromStr key = .panic ∨
          ∃ deltaId, DeltaId.fromStr key = .ok deltaId ∧ t.Gated deltaId ∧
            Derails t.inner deltaId) := by
  rw [readObject_whole t hkey, Outcome.bind_eq_panic_iff]
  simp only [hread, false_or]
  cases hid : DeltaId.fromStr key with
  | panic => simp
  | err e => simp
  | ok deltaId =>
    simp only [gate_eq_panic_iff hlist hread, Outcome.ok.injEq, reduceCtorEq, false_or,
      exists_eq_left', exists_and_right]

/-! ## What the gate looks at -/

omit [Adapter A] [SerdeSlice EndorsementRecord] in
/-- Two adapters with the same store and the same configuration, but for the
signing key and the switch for strict writes. -/
structure SameGate (t t' : TrustAdapter A) : Prop where
  inner : t.inner = t'.inner
  trustedKeys : t.keystore.trustedKeys = t'.keystore.trustedKeys
  roles : t.keystore.roles = t'.keystore.roles
  deltaFilter : t.deltaFilter = t'.deltaFilter
  rules : t.policy.rules = t'.policy.rules
  endorsementMode : t.endorsementMode = t'.endorsementMode

/-- A read looks at nothing else. -/
theorem SameGate.readObject_eq {t t' : TrustAdapter A} (h : t.SameGate t') (key : String)
    (offset length : UInt64) :
    t.readObject key offset length = t'.readObject key offset length := by
  obtain ⟨inner, ⟨sk, trusted, roles⟩, df, ⟨rules, strict⟩, mode⟩ := t
  obtain ⟨inner', ⟨sk', trusted', roles'⟩, df', ⟨rules', strict'⟩, mode'⟩ := t'
  obtain ⟨rfl, rfl, rfl, rfl, rfl, rfl⟩ := h
  rfl

theorem SameGate.fetchEndorsements_eq {t t' : TrustAdapter A} (h : t.SameGate t')
    (deltaId : DeltaId) : t.fetchEndorsements deltaId = t'.fetchEndorsements deltaId := by
  obtain ⟨inner, ⟨sk, trusted, roles⟩, df, policy, mode⟩ := t
  obtain ⟨inner', ⟨sk', trusted', roles'⟩, df', policy', mode'⟩ := t'
  obtain ⟨rfl, rfl, -, -, -, -⟩ := h
  rfl

end TrustAdapter

end MeldaSec
