import MeldaSec.Programs
import MeldaSec.Authorisation
import MeldaSec.ReadPath

/-!
# What the nodes of a repository share

A `Ledger` is the purpose of the trust layer without its files: which objects
have been written, and which keys have endorsed which deltas.  Every name has
one content, because the names of objects come from their bytes.  A delta is
accepted by a node when it is not blacklisted, and it is whitelisted or enough
of the trusted keys have endorsed it and may change all of its objects.

`Represents` relates a store to the ledger that it stands for.  Each call of
the trust adapter on such a store answers like the call on the ledger, and
leaves a store of the next ledger behind (`Represents.call`).
-/

namespace MeldaSec

open Rust Atomicity

section

variable [Crates]

/-- The objects that have been written, and the keys that have endorsed. -/
structure Ledger where
  stored : Finset String
  signed : Finset (VerifyingKey × DeltaId)

/-- Nothing has been written. -/
def Ledger.empty : Ledger := ⟨∅, ∅⟩

/-- A ledger grows by objects and endorsements. -/
instance : Preorder Ledger where
  le ledger ledger' := ledger.stored ⊆ ledger'.stored ∧ ledger.signed ⊆ ledger'.signed
  le_refl ledger := ⟨subset_rfl, subset_rfl⟩
  le_trans ledger ledger' ledger'' h h' := ⟨h.1.trans h'.1, h.2.trans h'.2⟩

/-- What a call on a ledger returns. -/
inductive Answer where
  | unit (result : Result Unit)
  | bytes (result : Result Bytes)
  | names (names : Finset String)
  | endorsements (result : EndorsementFetchResult)
  | verdict (accepted : Prop)

/-- The reply of the code says what the answer says, up to the texts of errors
and the order of listed names. -/
inductive Reply.Matches : Reply → Answer → Prop where
  | unit {x y : Result Unit} : Outcome.Agree x y → Matches (.unit x) (.unit y)
  | bytes {x y : Result Bytes} : Outcome.Agree x y → Matches (.bytes x) (.bytes y)
  | names {names : List String} {set : Finset String} :
    (∀ name, name ∈ names ↔ name ∈ set) → Matches (.names (.ok names)) (.names set)
  | endorsements (result : EndorsementFetchResult) :
    Matches (.endorsements (.ok result)) (.endorsements result)
  | verdict {valid : Bool} {accepted : Prop} :
    (valid = true ↔ accepted) → Matches (.verdict (.ok valid)) (.verdict accepted)

namespace Ledger

variable {A : Type}

/-- The keys that have endorsed the delta. -/
def signers (ledger : Ledger) (deltaId : DeltaId) : Finset VerifyingKey :=
  (ledger.signed.filter fun pair => pair.2 = deltaId).image Prod.fst

theorem mem_signers {ledger : Ledger} {deltaId : DeltaId} {vk : VerifyingKey} :
    vk ∈ ledger.signers deltaId ↔ (vk, deltaId) ∈ ledger.signed := by
  simp only [signers, Finset.mem_image, Finset.mem_filter]
  constructor
  · rintro ⟨⟨vk, deltaId⟩, ⟨hmem, rfl⟩, rfl⟩
    exact hmem
  · intro hmem
    exact ⟨(vk, deltaId), ⟨hmem, rfl⟩, rfl⟩

open Classical in
/-- The trusted keys that have endorsed the delta and may do so. -/
noncomputable def voters (ledger : Ledger) (t : TrustAdapter A) (deltaId : DeltaId)
    (data : Bytes) : Finset VerifyingKey :=
  t.keystore.trustedKeys.filter fun vk =>
    (vk, deltaId) ∈ ledger.signed ∧ t.Authorises data vk

/-- The node accepts the delta with these bytes. -/
def Accepts (ledger : Ledger) (t : TrustAdapter A) (deltaId : DeltaId) (data : Bytes) : Prop :=
  t.deltaFilter.isBlacklisted deltaId = false ∧
    (t.deltaFilter.isWhitelisted deltaId = true ∨
      t.endorsementMode.rule (ledger.voters t deltaId data).card t.keystore.trustedKeys.card)

/-- The node may write these bytes. -/
def MayWrite (t : TrustAdapter A) (key : String) (data : Bytes) : Prop :=
  t.policy.strictWrite = true → endsWith key ".delta" = true →
    ∃ sk, t.keystore.endorsementKey = some sk ∧ t.Authorises data (SigningKey.verifyingKey sk)

/-- The scan of a delta: the trusted signers, and the others. -/
def fetch (ledger : Ledger) (t : TrustAdapter A) (deltaId : DeltaId) : EndorsementFetchResult where
  valid := ((ledger.signers deltaId).filter (· ∈ t.keystore.trustedKeys)).image
    VerifyingKey.toBytes
  invalid := ((ledger.signers deltaId).filter (· ∉ t.keystore.trustedKeys)).image
    VerifyingKey.toBytes

/-- The names of the objects and of the endorsements. -/
def names (ledger : Ledger) : Finset String :=
  ledger.stored ∪ ledger.signed.image fun pair => EndorsementKey.fileName ⟨pair.2, pair.1.toBytes⟩

variable (content : String → Bytes)

/-- The object is a delta that the node does not accept. -/
def Hides (ledger : Ledger) (t : TrustAdapter A) (key : String) : Prop :=
  endsWith key ".delta" = true ∧
    ∀ deltaId, DeltaId.fromStr key = .ok deltaId → ¬ ledger.Accepts t deltaId (content key)

open Classical in
/-- A read by the node.  A stored delta whose name cannot be parsed without a
panic makes it panic. -/
noncomputable def read (ledger : Ledger) (t : TrustAdapter A) (key : String)
    (offset length : UInt64) : Result Bytes :=
  if key ∈ ledger.stored then
    if offset = 0 ∧ length = 0 then
      if ledger.Hides content t key then
        if DeltaId.fromStr key = .panic then .panic else .err "not accepted"
      else .ok (content key)
    else sliceOrErr "invalid_slice" (content key) offset length
  else .err "no such object"

open Classical in
/-- A call by the node. -/
noncomputable def call (t : TrustAdapter A) (request : Request) (ledger : Ledger) :
    Answer × Ledger :=
  match request with
  | .writeObject key data =>
    if MayWrite t key data then (.unit (.ok ()), { ledger with stored := insert key ledger.stored })
    else (.unit (.err "denied"), ledger)
  | .readObject key offset length => (.bytes (ledger.read content t key offset length), ledger)
  | .listObjects ext => (.names (ledger.names.filter (endsWith · ext)), ledger)
  | .endorse deltaId =>
    match t.keystore.endorsementKey with
    | none => (.unit (.err "no signing key"), ledger)
    | some sk =>
      (.unit (.ok ()), { ledger with signed := insert (sk.verifyingKey, deltaId) ledger.signed })
  | .fetchEndorsements deltaId => (.endorsements (ledger.fetch t deltaId), ledger)
  | .checkDelta deltaId =>
    (.verdict (deltaId.key ∈ ledger.stored ∧ ledger.Accepts t deltaId (content deltaId.key)),
      ledger)

/-- What a call does to the ledger: nothing, or it adds an object that the node
may write, or the endorsement of the node. -/
theorem call_cases (t : TrustAdapter A) (request : Request) (ledger : Ledger) :
    (ledger.call content t request).2 = ledger ∨
      (∃ key data, request = .writeObject key data ∧ MayWrite t key data ∧
        ledger.call content t request
          = (.unit (.ok ()), { ledger with stored := insert key ledger.stored })) ∨
      ∃ deltaId sk, request = .endorse deltaId ∧ t.keystore.endorsementKey = some sk ∧
        ledger.call content t request = (.unit (.ok ()),
          { ledger with signed := insert (sk.verifyingKey, deltaId) ledger.signed }) := by
  cases request with
  | writeObject key data =>
    by_cases hmay : MayWrite t key data
    · exact Or.inr (Or.inl ⟨key, data, rfl, hmay, if_pos hmay⟩)
    · exact Or.inl (by rw [call, if_neg hmay])
  | endorse deltaId =>
    cases hsk : t.keystore.endorsementKey with
    | none => exact Or.inl (by simp only [call, hsk])
    | some sk => exact Or.inr (Or.inr ⟨deltaId, sk, rfl, rfl, by simp only [call, hsk]⟩)
  | readObject key offset length => exact Or.inl rfl
  | listObjects ext => exact Or.inl rfl
  | fetchEndorsements deltaId => exact Or.inl rfl
  | checkDelta deltaId => exact Or.inl rfl

/-- A call adds to the ledger. -/
theorem le_call (t : TrustAdapter A) (request : Request) (ledger : Ledger) :
    ledger ≤ (ledger.call content t request).2 := by
  rcases ledger.call_cases content t request with
    hsame | ⟨key, data, -, -, hcall⟩ | ⟨deltaId, sk, -, -, hcall⟩
  · rw [hsame]
  · rw [hcall]
    exact ⟨Finset.subset_insert _ _, subset_rfl⟩
  · rw [hcall]
    exact ⟨subset_rfl, Finset.subset_insert _ _⟩

/-- The ledger returns the contents of the stored objects that it does not hide. -/
theorem read_eq_ok_iff {ledger : Ledger} {t : TrustAdapter A} {key : String} {data : Bytes} :
    ledger.read content t key 0 0 = .ok data ↔
      key ∈ ledger.stored ∧ ¬ ledger.Hides content t key ∧ data = content key := by
  simp only [read, and_self, if_true]
  split_ifs with hstored hhides hpanic
  · simp [hhides]
  · simp [hhides]
  · simp [hstored, hhides, eq_comm]
  · simp [hstored]

theorem read_eq_panic_iff {ledger : Ledger} {t : TrustAdapter A} {key : String} :
    ledger.read content t key 0 0 = .panic ↔
      key ∈ ledger.stored ∧ endsWith key ".delta" = true ∧ DeltaId.fromStr key = .panic := by
  simp only [read, and_self, if_true]
  split_ifs with hstored hhides hpanic
  · simp [hstored, hhides.1, hpanic]
  · simp [hpanic]
  · -- A name that makes the parser panic names no delta that could be accepted.
    simp only [false_iff, not_and]
    intro _ hext hpanic
    exact hhides ⟨hext, fun deltaId hid => by simp [hpanic] at hid⟩
  · simp [hstored]

/-- A delta under its own name is hidden when it is not accepted. -/
theorem hides_key_iff (hdelta : DeltaIdLaws) {ledger : Ledger} {t : TrustAdapter A}
    {deltaId : DeltaId} (hdigest : IsLowerHex deltaId.digest) :
    ledger.Hides content t deltaId.key ↔
      ¬ ledger.Accepts t deltaId (content deltaId.key) := by
  simp [Hides, hdelta.endsWith_key, hdelta.fromStr_key deltaId hdigest]

omit content in
theorem mem_voters {ledger : Ledger} {t : TrustAdapter A} {deltaId : DeltaId} {data : Bytes}
    {vk : VerifyingKey} :
    vk ∈ ledger.voters t deltaId data ↔
      vk ∈ t.keystore.trustedKeys ∧ (vk, deltaId) ∈ ledger.signed ∧ t.Authorises data vk := by
  classical
  rw [voters, Finset.mem_filter]

omit content in
/-- An accepted delta stays accepted when the ledger grows. -/
theorem Accepts.mono {ledger ledger' : Ledger} {t : TrustAdapter A} {deltaId : DeltaId}
    {data : Bytes} (h : ledger.Accepts t deltaId data) (hle : ledger ≤ ledger') :
    ledger'.Accepts t deltaId data := by
  classical
  refine ⟨h.1, h.2.imp id fun hrule => ?_⟩
  refine t.endorsementMode.rule_monotone (Finset.card_le_card ?_) (Finset.card_le_card ?_) hrule
  · intro vk hvk
    rw [mem_voters] at hvk ⊢
    exact ⟨hvk.1, hle.2 hvk.2.1, hvk.2.2⟩
  · intro vk hvk
    exact (mem_voters.mp hvk).1

end Ledger

/-- The calls of a well-behaved client: objects are written under the name of
their content, `.sig` objects are left to `endorse`, and a delta that is
endorsed or checked has a hexadecimal digest. -/
def Request.Honest (content : String → Bytes) : Request → Prop
  | .writeObject key data => endsWith key ".sig" = false ∧ data = content key
  | .readObject key _ _ => endsWith key ".sig" = false
  | .endorse deltaId => IsLowerHex deltaId.digest
  | .listObjects _ => True
  | .fetchEndorsements _ => True
  | .checkDelta deltaId => IsLowerHex deltaId.digest

end

/-! ## Stores that stand for a ledger -/

section

variable [Crates] [SerdeSlice EndorsementRecord] {M : Type} [MapAdapter M]

/-- The store has the objects of the ledger with their contents, and the
endorsements of the ledger as `endorse` writes them. -/
structure Represents (content : String → Bytes) (store : M) (ledger : Ledger) : Prop where
  objects : ∀ name, endsWith name ".sig" = false →
    MapAdapter.objects store name = if name ∈ ledger.stored then some (content name) else none
  stored : ∀ name ∈ ledger.stored, endsWith name ".sig" = false
  signed : ∃ signed, EndorsedExactly store signed ∧
    ∀ vk deltaId, (vk, deltaId) ∈ ledger.signed ↔ SignedBy signed deltaId vk

/-- A write under another name leaves the endorsements as they are. -/
theorem EndorsedExactly.of_write {store store' : M} {signed : SigningKey → DeltaId → Prop}
    (h : EndorsedExactly store signed) {name : String} {bytes : Bytes}
    (hname : endsWith name ".sig" = false) (hwrite : MapAdapter.objects store'
      = Function.update (MapAdapter.objects store) name (some bytes)) :
    EndorsedExactly store' signed where
  written other bytes' hobj hsuffix := by
    have hne : other ≠ name := fun heq => by simp [heq, hname] at hsuffix
    rw [hwrite, Function.update_of_ne hne] at hobj
    exact h.written other bytes' hobj hsuffix
  present sk deltaId hsigned := by
    have hne : (TrustAdapter.ownEndorsementKey sk deltaId).fileName ≠ name := by
      intro heq
      rw [← heq, EndorsementKey.endsWith_fileName] at hname
      cases hname
    rw [hwrite, Function.update_of_ne hne]
    exact h.present sk deltaId hsigned
  lowerHex := h.lowerHex

namespace Represents

variable {content : String → Bytes} {store : M} {ledger : Ledger}

/-- A store without objects stands for the empty ledger. -/
theorem empty (h : ∀ name, MapAdapter.objects store name = none) :
    Represents content store Ledger.empty where
  objects name _ := by simp [h name, Ledger.empty]
  stored name hname := by simp [Ledger.empty] at hname
  signed := by
    refine ⟨_, EndorsedExactly.empty fun name bytes hobj => by simp [h name] at hobj, ?_⟩
    intro vk deltaId
    simp [Ledger.empty, SignedBy]

theorem objects_of_stored (h : Represents content store ledger) {name : String}
    (hname : name ∈ ledger.stored) : MapAdapter.objects store name = some (content name) := by
  rw [h.objects name (h.stored name hname), if_pos hname]

/-- A further object. -/
theorem write (h : Represents content store ledger) {store' : M} {name : String}
    (hname : endsWith name ".sig" = false) (hwrite : MapAdapter.objects store'
      = Function.update (MapAdapter.objects store) name (some (content name))) :
    Represents content store' { ledger with stored := insert name ledger.stored } where
  objects other hother := by
    rw [hwrite]
    by_cases heq : other = name
    · subst heq
      simp
    · rw [Function.update_of_ne heq, h.objects other hother]
      simp [heq]
  stored other hother := by
    rcases Finset.mem_insert.mp hother with rfl | hother
    · exact hname
    · exact h.stored other hother
  signed := by
    obtain ⟨signed, hexactly, hiff⟩ := h.signed
    exact ⟨signed, hexactly.of_write hname hwrite, hiff⟩

/-- Other signatures, where the objects are as before. -/
theorem sign (h : Represents content store ledger) {store' : M}
    {pairs : Finset (VerifyingKey × DeltaId)}
    (hobjects : ∀ name, endsWith name ".sig" = false →
      MapAdapter.objects store' name = MapAdapter.objects store name)
    (hsigned : ∃ signed, EndorsedExactly store' signed ∧
      ∀ vk deltaId, (vk, deltaId) ∈ pairs ↔ SignedBy signed deltaId vk) :
    Represents content store' { ledger with signed := pairs } where
  objects name hname := by rw [hobjects name hname, h.objects name hname]
  stored := h.stored
  signed := hsigned

/-- The record of a signing key adds its pair. -/
theorem writeRecord (h : Represents content store ledger) {store' : M} {sk : SigningKey}
    {deltaId : DeltaId} (hdigest : IsLowerHex deltaId.digest) {bytes : Bytes}
    (hbytes : SerdeSlice.toVec (TrustAdapter.signedRecord sk deltaId) = .ok bytes)
    (hwrite : MapAdapter.objects store' = Function.update (MapAdapter.objects store)
      (TrustAdapter.ownEndorsementKey sk deltaId).fileName (some bytes)) :
    Represents content store'
      { ledger with signed := insert (sk.verifyingKey, deltaId) ledger.signed } := by
  obtain ⟨signed, hexactly, hiff⟩ := h.signed
  refine h.sign (fun name hname => ?_) ⟨_, hexactly.insert hdigest hbytes hwrite, ?_⟩
  · have hne : name ≠ (TrustAdapter.ownEndorsementKey sk deltaId).fileName := by
      rintro rfl
      simp [EndorsementKey.endsWith_fileName] at hname
    rw [hwrite, Function.update_of_ne hne]
  · intro vk deltaId'
    rw [Finset.mem_insert, hiff, Prod.mk.injEq]
    constructor
    · rintro (⟨rfl, rfl⟩ | ⟨sk', hsigned, hvk⟩)
      · exact ⟨sk, Or.inr ⟨rfl, rfl⟩, rfl⟩
      · exact ⟨sk', Or.inl hsigned, hvk⟩
    · rintro ⟨sk', hsigned | ⟨rfl, rfl⟩, hvk⟩
      · exact Or.inr ⟨sk', hsigned, hvk⟩
      · exact Or.inl ⟨hvk.symm, rfl⟩

section

variable (hdelta : DeltaIdLaws) (hdigit : DigitLaw) (hsign : SignatureLaw)
  (hbase64 : Base64Law) (hserde : SerdeSliceLaw EndorsementRecord)
include hdelta hdigit hsign hbase64 hserde

theorem cleanScan (h : Represents content store ledger) (deltaId : DeltaId) :
    CleanScan store deltaId := by
  obtain ⟨signed, hexactly, -⟩ := h.signed
  exact hexactly.cleanScan hdelta hdigit hsign hbase64 hserde deltaId

theorem endorses_iff (h : Represents content store ledger) {deltaId : DeltaId}
    {vk : VerifyingKey} : Endorses store deltaId vk ↔ (vk, deltaId) ∈ ledger.signed := by
  obtain ⟨signed, hexactly, hiff⟩ := h.signed
  rw [hiff]
  exact hexactly.endorses_iff_signedBy hdelta hdigit hsign hbase64 hserde

/-- The gate opens for the deltas that the ledger accepts. -/
theorem admits_iff (h : Represents content store ledger) (t : TrustAdapter M)
    {deltaId : DeltaId} {data : Bytes} :
    (t.withInner store).Admits deltaId data ↔ ledger.Accepts t deltaId data := by
  classical
  have hvoters : (t.withInner store).authorisedEndorsers deltaId data
      = ledger.voters t deltaId data := by
    ext vk
    rw [TrustAdapter.mem_authorisedEndorsers, Ledger.mem_voters]
    exact and_congr_right fun _ => and_congr_left fun _ =>
      h.endorses_iff hdelta hdigit hsign hbase64 hserde
  have hlist := MapAdapter.listObjects_ne_panic store ".sig"
  have hclean := h.cleanScan hdelta hdigit hsign hbase64 hserde deltaId
  rw [TrustAdapter.Admits, hvoters, Ledger.Accepts]
  show t.deltaFilter.isBlacklisted deltaId = false ∧ (t.Gated deltaId →
    Adapter.listObjects store ".sig" ≠ .panic ∧ CleanScan store deltaId ∧
      t.endorsementMode.rule (ledger.voters t deltaId data).card t.keystore.trustedKeys.card) ↔ _
  refine and_congr_right fun hblack => ?_
  by_cases hmode : t.endorsementMode = .permissive
  · simp [TrustAdapter.Gated, hmode, EndorsementMode.rule, Quorum.always]
  · by_cases hwhite : t.deltaFilter.isWhitelisted deltaId = true
    · simp [TrustAdapter.Gated, hwhite]
    · rw [Bool.not_eq_true] at hwhite
      have hgated : t.Gated deltaId := ⟨hblack, hwhite, hmode⟩
      simp [hgated, hlist, hclean, hwhite]

/-- A whole read of a delta says what the read of the ledger says. -/
theorem readDelta_agree (h : Represents content store ledger) (t : TrustAdapter M) {key : String}
    (hext : endsWith key ".delta" = true) :
    Outcome.Agree ((t.withInner store).readObject key 0 0) (ledger.read content t key 0 0) := by
  have hinner : (t.withInner store).inner = store := rfl
  have hobj := h.objects key (endsWith_sig_of_delta hext)
  apply Outcome.Agree.of_iff
  · have hderails : ∀ deltaId, ¬ Derails store deltaId := fun deltaId =>
      (h.cleanScan hdelta hdigit hsign hbase64 hserde deltaId).not_derails
    rw [TrustAdapter.readObject_eq_panic_iff hext (MapAdapter.listObjects_ne_panic _ _)
      (MapAdapter.readObject_ne_panic _), hinner, Ledger.read_eq_panic_iff]
    simp only [MapAdapter.readObject_eq_ok_iff, hobj, Option.ite_none_right_eq_some,
      exists_and_left, Option.some.injEq, exists_eq', and_true, hderails, and_false, exists_false,
      or_false, hext, true_and]
  · intro data
    rw [TrustAdapter.readObject_eq_ok_iff hext, hinner, MapAdapter.readObject_eq_ok_iff, hobj,
      Ledger.read_eq_ok_iff]
    simp only [h.admits_iff hdelta hdigit hsign hbase64 hserde, Ledger.Hides, hext, true_and,
      not_forall, not_not, exists_prop, Option.ite_none_right_eq_some, Option.some.injEq]
    constructor
    · rintro ⟨⟨hstored, rfl⟩, haccepts⟩
      exact ⟨hstored, haccepts, rfl⟩
    · rintro ⟨hstored, haccepts, rfl⟩
      exact ⟨⟨hstored, rfl⟩, haccepts⟩

/-- A read of a store says what the read of the ledger says. -/
theorem read_agree (h : Represents content store ledger) (t : TrustAdapter M) {key : String}
    (hkey : endsWith key ".sig" = false) (offset length : UInt64) :
    Outcome.Agree ((t.withInner store).readObject key offset length)
      (ledger.read content t key offset length) := by
  have hinner : (t.withInner store).inner = store := rfl
  by_cases hstored : key ∈ ledger.stored
  · have hdata := MapAdapter.readObject_some (h.objects_of_stored hstored)
    by_cases hwhole : offset = 0 ∧ length = 0
    · obtain ⟨rfl, rfl⟩ := hwhole
      by_cases hext : endsWith key ".delta" = true
      · exact h.readDelta_agree hdelta hdigit hsign hbase64 hserde t hext
      · apply Outcome.Agree.of_eq
        rw [TrustAdapter.readObject, hinner, hdata, Outcome.ok_bind]
        simp [Ledger.read, Ledger.Hides, hstored, hext]
    · apply Outcome.Agree.of_eq
      rw [TrustAdapter.readObject_part _ _ hwhole, hinner, hdata, Outcome.ok_bind, Ledger.read,
        if_pos hstored, if_neg hwhole]
  · have hobj := h.objects key hkey
    rw [if_neg hstored] at hobj
    obtain ⟨e, he⟩ := MapAdapter.readObject_none hobj
    rw [Ledger.read, if_neg hstored, TrustAdapter.readObject, hinner, he, Outcome.err_bind]
    exact .err _ _

/-- The scan of a delta returns the trusted signers and the others. -/
theorem fetchEndorsements_eq (h : Represents content store ledger) (t : TrustAdapter M)
    (deltaId : DeltaId) :
    (t.withInner store).fetchEndorsements deltaId = .ok (ledger.fetch t deltaId) := by
  obtain ⟨signed, hexactly, hiff⟩ := h.signed
  obtain ⟨result, hfetch, hvalid, hinvalid⟩ := hexactly.exists_fetchEndorsements hdelta hdigit
    hsign hbase64 hserde (t := t.withInner store) rfl deltaId
  have hkeys : (t.withInner store).keystore = t.keystore := rfl
  rw [hkeys] at hvalid hinvalid
  rw [hfetch, Outcome.ok.injEq, Ledger.fetch, EndorsementFetchResult.mk.injEq]
  constructor
  · ext pk
    rw [hvalid, Finset.mem_image]
    simp only [Finset.mem_filter, Ledger.mem_signers, hiff]
    constructor
    · intro ⟨vk, htrusted, hpk, hsigned⟩
      exact ⟨vk, ⟨hsigned, htrusted⟩, hpk⟩
    · intro ⟨vk, ⟨hsigned, htrusted⟩, hpk⟩
      exact ⟨vk, htrusted, hpk, hsigned⟩
  · ext pk
    rw [hinvalid, Finset.mem_image]
    simp only [Finset.mem_filter, Ledger.mem_signers, hiff]
    constructor
    · intro ⟨vk, huntrusted, hpk, hsigned⟩
      exact ⟨vk, ⟨hsigned, huntrusted⟩, hpk⟩
    · intro ⟨vk, ⟨hsigned, huntrusted⟩, hpk⟩
      exact ⟨vk, huntrusted, hpk, hsigned⟩

/-- A key that finds its own endorsement has endorsed. -/
theorem exists_alreadyEndorsed (h : Represents content store ledger) (t : TrustAdapter M)
    (sk : SigningKey) {deltaId : DeltaId} (hdigest : IsLowerHex deltaId.digest) :
    ∃ present, (t.withInner store).alreadyEndorsed sk deltaId = .ok present ∧
      (present = true → (sk.verifyingKey, deltaId) ∈ ledger.signed) := by
  obtain ⟨signed, hexactly, hiff⟩ := h.signed
  obtain ⟨present, hpresent, hsigner⟩ := hexactly.exists_alreadyEndorsed hdelta hdigit hsign
    hbase64 hserde (t := t.withInner store) rfl sk hdigest
  exact ⟨present, hpresent, fun htrue => (hiff _ _).mpr (hsigner htrue)⟩

omit hdelta hdigit hsign hbase64 in
/-- The second half of `endorse` adds the pair of the key. -/
theorem writeEndorsement (h : Represents content store ledger) (t : TrustAdapter M)
    (sk : SigningKey) {deltaId : DeltaId} (hdigest : IsLowerHex deltaId.digest) :
    ((t.withInner store).writeEndorsement sk deltaId).1 = .ok () ∧
      Represents content ((t.withInner store).writeEndorsement sk deltaId).2
        { ledger with signed := insert (sk.verifyingKey, deltaId) ledger.signed } := by
  obtain ⟨bytes, hbytes, hok, hwrite⟩ :=
    (t.withInner store).writeEndorsement_eq hserde sk deltaId
  exact ⟨hok, h.writeRecord hdigest hbytes hwrite⟩

/-- An endorsement of a store is an endorsement of the ledger. -/
theorem endorse (h : Represents content store ledger) (t : TrustAdapter M) {sk : SigningKey}
    (hsk : t.keystore.endorsementKey = some sk) {deltaId : DeltaId}
    (hdigest : IsLowerHex deltaId.digest) :
    ((t.withInner store).endorse deltaId).1 = .ok () ∧
      Represents content ((t.withInner store).endorse deltaId).2
        { ledger with signed := insert (sk.verifyingKey, deltaId) ledger.signed } := by
  have hkey : (t.withInner store).keystore.endorsementKey = some sk := hsk
  obtain ⟨present, hpresent, hsigned⟩ :=
    h.exists_alreadyEndorsed hdelta hdigit hsign hbase64 hserde t sk hdigest
  cases present with
  | true =>
    simp only [TrustAdapter.endorse, hkey, hpresent]
    rw [Finset.insert_eq_self.mpr (hsigned rfl)]
    exact ⟨trivial, h⟩
  | false =>
    simp only [TrustAdapter.endorse, hkey, hpresent]
    exact h.writeEndorsement hserde t sk hdigest

omit hdelta hdigit hsign hbase64 hserde in
/-- A write of a store is a write of the ledger. -/
theorem writeObject (h : Represents content store ledger) (t : TrustAdapter M) {key : String}
    (hkey : endsWith key ".sig" = false) :
    Reply.Matches ((t.withInner store).call (.writeObject key (content key))).1
        (ledger.call content t (.writeObject key (content key))).1 ∧
      Represents content ((t.withInner store).call (.writeObject key (content key))).2.inner
        (ledger.call content t (.writeObject key (content key))).2 := by
  simp only [TrustAdapter.call, Ledger.call]
  by_cases hmay : Ledger.MayWrite t key (content key)
  · have hcheck : (t.withInner store).checkWrite key (content key) = .ok () :=
      TrustAdapter.checkWrite_iff.mpr hmay
    rw [if_pos hmay, TrustAdapter.writeObject, hcheck]
    exact ⟨.unit (.of_eq (MapAdapter.writeObject_fst _ _ _)),
      h.write hkey (MapAdapter.objects_writeObject _ _ _)⟩
  · have hcheck : (t.withInner store).checkWrite key (content key) ≠ .ok () :=
      fun hok => hmay (TrustAdapter.checkWrite_iff.mp hok)
    obtain ⟨e, he⟩ := TrustAdapter.writeObject_of_checkWrite_ne_ok hcheck
    rw [if_neg hmay, he]
    exact ⟨.unit (.err _ _), h⟩

omit hdelta hdigit hsign hbase64 hserde in
/-- The listed names are those of the ledger. -/
theorem mem_names_iff (h : Represents content store ledger) {name : String} :
    (MapAdapter.objects store name).isSome ↔ name ∈ ledger.names := by
  obtain ⟨signed, hexactly, hiff⟩ := h.signed
  rw [Ledger.names, Finset.mem_union, Finset.mem_image]
  cases hsig : endsWith name ".sig" with
  | false =>
    rw [h.objects name hsig]
    have hnot : ¬ ∃ pair ∈ ledger.signed,
        EndorsementKey.fileName ⟨pair.2, pair.1.toBytes⟩ = name := by
      rintro ⟨pair, -, rfl⟩
      simp [EndorsementKey.endsWith_fileName] at hsig
    by_cases hstored : name ∈ ledger.stored <;> simp [hstored, hnot]
  | true =>
    have hnot : name ∉ ledger.stored := fun hstored => by simp [h.stored name hstored] at hsig
    rw [or_iff_right hnot, Option.isSome_iff_exists]
    constructor
    · intro ⟨bytes, hobj⟩
      obtain ⟨sk, deltaId, hsigned, rfl, -⟩ := hexactly.written name bytes hobj hsig
      exact ⟨(sk.verifyingKey, deltaId), (hiff _ _).mpr ⟨sk, hsigned, rfl⟩, rfl⟩
    · rintro ⟨⟨vk, deltaId⟩, hmem, rfl⟩
      obtain ⟨sk, hsigned, rfl⟩ := (hiff _ _).mp hmem
      exact hexactly.present sk deltaId hsigned

omit hdelta hdigit hsign hbase64 hserde in
theorem listObjects (h : Represents content store ledger) (ext : String) :
    Reply.Matches (.names (Adapter.listObjects store ext))
      (.names (ledger.names.filter (endsWith · ext))) := by
  obtain ⟨names, hnames, hmem⟩ := MapAdapter.listObjects_ok store ext
  rw [hnames]
  refine .names fun name => ?_
  rw [hmem, h.mem_names_iff, Finset.mem_filter]

/-- A check of a delta returns whether the ledger accepts it. -/
theorem checkDelta (h : Represents content store ledger) (t : TrustAdapter M)
    {deltaId : DeltaId} (hdigest : IsLowerHex deltaId.digest) :
    Reply.Matches (.verdict ((t.withInner store).checkDelta deltaId))
      (.verdict (deltaId.key ∈ ledger.stored ∧
        ledger.Accepts t deltaId (content deltaId.key))) := by
  have hext := hdelta.endsWith_key deltaId
  have hread := h.read_agree hdelta hdigit hsign hbase64 hserde t (endsWith_sig_of_delta hext) 0 0
  have haccepts : (∃ data, ledger.read content t deltaId.key 0 0 = .ok data) ↔
      deltaId.key ∈ ledger.stored ∧ ledger.Accepts t deltaId (content deltaId.key) := by
    simp only [Ledger.read_eq_ok_iff, Ledger.hides_key_iff content hdelta hdigest, not_not,
      exists_and_left, exists_eq, and_true]
  rw [← haccepts, TrustAdapter.checkDelta]
  generalize (t.withInner store).readObject deltaId.key 0 0 = x at hread ⊢
  generalize hy : ledger.read content t deltaId.key 0 0 = y at hread ⊢
  cases hread with
  | ok data => exact .verdict (by simp)
  | err e e' => exact .verdict (by simp)
  | panic =>
    have hpanic := (ledger.read_eq_panic_iff content).mp hy
    simp [hdelta.fromStr_key deltaId hdigest] at hpanic

/-- A call on a store answers like the call on the ledger, and leaves a store
of the next ledger behind. -/
theorem call (h : Represents content store ledger) (t : TrustAdapter M) {request : Request}
    (hhonest : request.Honest content) :
    Reply.Matches ((t.withInner store).call request).1 (ledger.call content t request).1 ∧
      Represents content ((t.withInner store).call request).2.inner
        (ledger.call content t request).2 := by
  cases request with
  | writeObject key data =>
    obtain ⟨hkey, rfl⟩ := hhonest
    exact h.writeObject t hkey
  | readObject key offset length =>
    exact ⟨.bytes (h.read_agree hdelta hdigit hsign hbase64 hserde t hhonest offset length), h⟩
  | listObjects ext => exact ⟨h.listObjects ext, h⟩
  | endorse deltaId =>
    cases hsk : t.keystore.endorsementKey with
    | none =>
      have hkey : (t.withInner store).keystore.endorsementKey = none := hsk
      simp only [TrustAdapter.call, Ledger.call, TrustAdapter.endorse, hsk, hkey]
      exact ⟨.unit (.err _ _), h⟩
    | some sk =>
      obtain ⟨hok, hnext⟩ := h.endorse hdelta hdigit hsign hbase64 hserde t hsk hhonest
      simp only [TrustAdapter.call, Ledger.call, hsk, hok]
      exact ⟨.unit (.ok ()), hnext⟩
  | fetchEndorsements deltaId =>
    simp only [TrustAdapter.call, Ledger.call,
      h.fetchEndorsements_eq hdelta hdigit hsign hbase64 hserde]
    exact ⟨.endorsements _, h⟩
  | checkDelta deltaId =>
    exact ⟨h.checkDelta hdelta hdigit hsign hbase64 hserde t hhonest, h⟩

end

end Represents

end

end MeldaSec
