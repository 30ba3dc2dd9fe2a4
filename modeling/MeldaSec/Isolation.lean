import MeldaSec.Reference

/-!
# What other objects do to a delta

The gate decides about one delta, but it scans the names of all endorsements.
This module says how far the other objects of the store reach into that
decision.

The first group adds objects.  More objects never take an endorser away
(`authorisedEndorsers_mono`), so an accepted delta stays accepted as long as
the scan gets past the added name.  The second group compares two stores that
agree on the delta and on the written names of its endorsements.  Both have
the same endorsers, and only the scan can tell the stores apart.
-/

namespace MeldaSec

open Rust

section

variable [Crates] {M N : Type} [MapAdapter M] [MapAdapter N] [SerdeSlice EndorsementRecord]

/-! ## More objects -/

/-- The second store has every object of the first one. -/
def Extends (s : M) (s' : N) : Prop :=
  ∀ name bytes, MapAdapter.objects s name = some bytes → MapAdapter.objects s' name = some bytes

theorem HoldsSignature.mono {s : M} {s' : N} (h : Extends s s') {name : String} {sig : Signature}
    (hsig : HoldsSignature s name sig) : HoldsSignature s' name sig := by
  obtain ⟨bytes, hobj⟩ := hsig.exists_object
  have hsame := MapAdapter.readObject_congr (hobj.trans (h name bytes hobj).symm)
  exact (holdsSignature_congr hsame sig).mp hsig

theorem Passes.mono {s : M} {s' : N} (h : Extends s s') {deltaId : DeltaId} {name : String}
    (hpasses : Passes s deltaId name) : Passes s' deltaId name := by
  rcases hpasses with herr | ⟨key, hkey, hcomplete⟩
  · exact Or.inl herr
  · refine Or.inr ⟨key, hkey, fun hd => ?_⟩
    obtain ⟨sig, vk, hsig, hvk⟩ := hcomplete hd
    exact ⟨sig, vk, hsig.mono h, hvk⟩

theorem Endorses.mono {s : M} {s' : N} (h : Extends s s') {deltaId : DeltaId}
    {vk : VerifyingKey} (hendorses : Endorses s deltaId vk) : Endorses s' deltaId vk := by
  obtain ⟨name, hname, hkey, sig, hsig, hverify⟩ := hendorses
  obtain ⟨hsome, hsuffix⟩ := mem_sigNames.mp hname
  obtain ⟨bytes, hobj⟩ := Option.isSome_iff_exists.mp hsome
  have hname' := mem_sigNames.mpr ⟨by rw [h name bytes hobj]; rfl, hsuffix⟩
  exact ⟨name, hname', hkey, sig, hsig.mono h, hverify⟩

/-- A store with one object under a new name. -/
structure AddsObject (s s' : M) (name : String) : Prop where
  new : MapAdapter.objects s name = none
  update : ∃ bytes,
    MapAdapter.objects s' = Function.update (MapAdapter.objects s) name (some bytes)

omit [Crates] [SerdeSlice EndorsementRecord] in
theorem AddsObject.extends {s s' : M} {name : String} (h : AddsObject s s' name) :
    Extends s s' := by
  obtain ⟨bytes, hupdate⟩ := h.update
  intro other bytes' hobj
  have hother : other ≠ name := by
    rintro rfl
    simp [h.new] at hobj
  rw [hupdate, Function.update_of_ne hother, hobj]

omit [Crates] [SerdeSlice EndorsementRecord] in
/-- The new name is listed when it is a `.sig` name. -/
theorem AddsObject.mem_sigNames {s s' : M} {name : String} (h : AddsObject s s' name)
    (hsuffix : endsWith name ".sig" = true) : name ∈ sigNames s' := by
  obtain ⟨bytes, hupdate⟩ := h.update
  exact MeldaSec.mem_sigNames.mpr ⟨by simp [hupdate], hsuffix⟩

/-- A clean scan stays clean when it gets past the new name. -/
theorem AddsObject.cleanScan {s s' : M} {name : String} (h : AddsObject s s' name)
    {deltaId : DeltaId} (hclean : CleanScan s deltaId)
    (hpasses : endsWith name ".sig" = true → Passes s' deltaId name) :
    CleanScan s' deltaId := by
  obtain ⟨bytes, hupdate⟩ := h.update
  rw [cleanScan_iff]
  intro other bytes' hobj hsuffix
  by_cases hother : other = name
  · subst hother
    exact hpasses hsuffix
  · rw [hupdate, Function.update_of_ne hother] at hobj
    exact (cleanScan_iff.mp hclean other bytes' hobj hsuffix).mono h.extends

namespace TrustAdapter

/-- More objects never take an authorised endorser away. -/
theorem authorisedEndorsers_mono {t : TrustAdapter M} {s' : N} (h : Extends t.inner s')
    (deltaId : DeltaId) (data : Bytes) :
    t.authorisedEndorsers deltaId data ⊆ (t.withInner s').authorisedEndorsers deltaId data := by
  intro vk hvk
  rw [mem_authorisedEndorsers] at hvk ⊢
  exact ⟨hvk.1, hvk.2.1.mono h, hvk.2.2⟩

/-- An accepted delta stays accepted in a store with more objects, if its
scan stays clean. -/
theorem Admits.mono {t : TrustAdapter M} {s' : N} (h : Extends t.inner s') {deltaId : DeltaId}
    {data : Bytes} (hadmits : t.Admits deltaId data)
    (hclean : t.Gated deltaId → CleanScan s' deltaId) : (t.withInner s').Admits deltaId data := by
  refine ⟨hadmits.1, fun hgated => ⟨MapAdapter.listObjects_ne_panic _ _, hclean hgated, ?_⟩⟩
  exact t.endorsementMode.rule_monotone
    (Finset.card_le_card (authorisedEndorsers_mono h deltaId data))
    (card_authorisedEndorsers_le _ _ _) (hadmits.2 hgated).2.2

/-- One more object keeps an accepted delta accepted, with the same bytes,
exactly when the delta is not gated, or the scan gets past the new name. -/
theorem readObject_add_object_iff (t : TrustAdapter M) (s' : M) {key name : String}
    {data : Bytes} (hkey : endsWith key ".delta" = true) (hadd : AddsObject t.inner s' name)
    (haccepted : t.readObject key 0 0 = .ok data) :
    (t.withInner s').readObject key 0 0 = .ok data ↔
      ∀ deltaId, DeltaId.fromStr key = .ok deltaId → t.Gated deltaId →
        endsWith name ".sig" = true → Passes s' deltaId name := by
  obtain ⟨hdata, deltaId, hid, hadmits⟩ := (readObject_eq_ok_iff hkey).mp haccepted
  constructor
  · intro hread deltaId' hid' hgated hsuffix
    obtain ⟨-, hadmits'⟩ := (readObject_of_fromStr hkey hid').mp hread
    exact (hadmits'.2 hgated).2.1 name (hadd.mem_sigNames hsuffix)
  · intro hpasses
    have hdata' : MapAdapter.objects s' key = some data :=
      hadd.extends key data (MapAdapter.readObject_eq_ok_iff.mp hdata)
    refine (readObject_of_fromStr hkey hid).mpr ⟨MapAdapter.readObject_some hdata', ?_⟩
    exact hadmits.mono hadd.extends fun hgated =>
      hadd.cleanScan (hadmits.2 hgated).2.1 (hpasses deltaId hid hgated)

end TrustAdapter

end

section

open Reference

/-- The sample store with one more object. -/
def storeWith (name : String) (bytes : Bytes) : MemoryMap :=
  (Adapter.writeObject sampleStore name bytes).2

theorem addsObject_storeWith {name : String} {bytes : Bytes}
    (hnew : MapAdapter.objects sampleStore name = none) :
    AddsObject sampleStore (storeWith name bytes) name :=
  ⟨hnew, bytes, MapAdapter.objects_writeObject _ _ _⟩

/-- `3-aa.delta.00.sig`: an endorsement of a third delta, by a key that is too
short. -/
def otherName : String := EndorsementKey.fileName ⟨sampleDelta 3, [0]⟩

theorem fromStr_otherName : EndorsementKey.fromStr otherName = .ok ⟨sampleDelta 3, [0]⟩ :=
  EndorsementKey.fromStr_fileName deltaIdLaws digitLaw (isLowerHex_sampleDelta 3) (by simp)

theorem passes_otherName (store : MemoryMap) : Passes store (sampleDelta 1) otherName :=
  Or.inr ⟨_, fromStr_otherName, fun hd => absurd hd (by decide)⟩

/-- An endorsement of another delta hides nothing, however bad it is. -/
theorem readObject_add_object_iff_sample :
    ((sampleTrust .single).withInner (storeWith otherName [])).readObject (sampleDelta 1).key 0 0
      = .ok sampleData := by
  refine (TrustAdapter.readObject_add_object_iff (sampleTrust .single) (storeWith otherName [])
    (endsWith_key _) (addsObject_storeWith (by decide))
    (readObject_sampleTrust .single (Or.inl rfl))).mpr fun deltaId hid _ _ => ?_
  obtain rfl := Outcome.ok.inj (hid.symm.trans (fromKeyLaw (sampleDelta 1)))
  exact passes_otherName _

/-- `1-aa.delta.bb.sig` -/
def strayName : String := EndorsementKey.fileName ⟨sampleDelta 1, [187]⟩

theorem fromStr_strayName : EndorsementKey.fromStr strayName = .ok ⟨sampleDelta 1, [187]⟩ :=
  EndorsementKey.fromStr_fileName deltaIdLaws digitLaw (isLowerHex_sampleDelta 1) (by simp)

/-- The scan of the delta stops at a name with a key of one byte. -/
theorem not_passes_of_short_key {store : MemoryMap} {name : String} {deltaId : DeltaId}
    (hkey : EndorsementKey.fromStr name = .ok ⟨deltaId, [187]⟩) :
    ¬ Passes store deltaId name := by
  rintro (⟨e, he⟩ | ⟨key, hkey', hcomplete⟩)
  · simp [hkey] at he
  · obtain rfl := Outcome.ok.inj (hkey.symm.trans hkey')
    obtain ⟨-, vk, -, hvk⟩ := hcomplete rfl
    have hlen : vk.toBytes.length = 32 := vk.val.property
    simp [hvk] at hlen

/-- So a store that lists such a name does not let the delta through. -/
theorem not_readObject_of_short_key {mode : EndorsementMode} (hmode : mode ≠ .permissive)
    {store : MemoryMap} {name : String} (hname : name ∈ sigNames store) {index : Nat}
    (hkey : EndorsementKey.fromStr name = .ok ⟨sampleDelta index, [187]⟩) (data : Bytes) :
    ((sampleTrust mode).withInner store).readObject (sampleDelta index).key 0 0 ≠ .ok data := by
  intro hread
  obtain ⟨-, hadmits⟩ :=
    (TrustAdapter.readObject_of_fromStr (endsWith_key _) (fromKeyLaw _)).mp hread
  have hgated : ((sampleTrust mode).withInner store).Gated (sampleDelta index) := ⟨rfl, rfl, hmode⟩
  exact not_passes_of_short_key hkey ((hadmits.2 hgated).2.1 name hname)

/-- An empty file with a short key in its name hides an accepted delta. -/
theorem strayName_hides :
    (sampleTrust .single).readObject (sampleDelta 1).key 0 0 = .ok sampleData ∧
      AddsObject sampleStore (storeWith strayName []) strayName ∧
      ∀ data, ((sampleTrust .single).withInner (storeWith strayName [])).readObject
        (sampleDelta 1).key 0 0 ≠ .ok data := by
  have hadd : AddsObject sampleStore (storeWith strayName []) strayName :=
    addsObject_storeWith (by decide)
  exact ⟨readObject_sampleTrust .single (Or.inl rfl), hadd,
    not_readObject_of_short_key (by decide)
      (hadd.mem_sigNames (EndorsementKey.endsWith_fileName _)) fromStr_strayName⟩

end

/-! ## Stores that agree on the delta -/

section

variable [Crates] {M N : Type} [MapAdapter M] [MapAdapter N] [SerdeSlice EndorsementRecord]

/-- The same object for the delta, and the same objects under the written
names of its endorsements. -/
structure AgreeOn (s : M) (s' : N) (deltaId : DeltaId) : Prop where
  delta : MapAdapter.objects s deltaId.key = MapAdapter.objects s' deltaId.key
  endorsement : ∀ pubkey,
    MapAdapter.objects s (EndorsementKey.fileName ⟨deltaId, pubkey⟩)
      = MapAdapter.objects s' (EndorsementKey.fileName ⟨deltaId, pubkey⟩)

/-- Two calls return the same bytes, or an error each. -/
def SameOutcome (x y : Result Bytes) : Prop :=
  (∃ data, x = .ok data ∧ y = .ok data) ∨ (∃ e, x = .err e) ∧ ∃ e, y = .err e

omit [Crates] [SerdeSlice EndorsementRecord] in
/-- Two calls that can only return `data` have the same outcome when neither
panics and both or none return it. -/
theorem sameOutcome_iff {x y : Result Bytes} {data : Bytes} (hx : ∀ out, x = .ok out → out = data)
    (hy : ∀ out, y = .ok out → out = data) :
    SameOutcome x y ↔ x ≠ .panic ∧ y ≠ .panic ∧ (x = .ok data ↔ y = .ok data) := by
  cases x with
  | panic => simp [SameOutcome]
  | ok out =>
    obtain rfl := hx out rfl
    cases y <;> simp [SameOutcome, eq_comm]
  | err e =>
    cases y with
    | ok out => simp [SameOutcome, hy out rfl]
    | err e' => simp [SameOutcome]
    | panic => simp [SameOutcome]

/-- Two stores that agree on the delta have the same endorsers of it. -/
theorem AgreeOn.endorses_iff (hdelta : DeltaIdLaws) (hdigests : EndorsementKey.DigestLaw)
    (hdigit : DigitLaw) {s : M} {s' : N} {deltaId : DeltaId} (h : AgreeOn s s' deltaId)
    (vk : VerifyingKey) : Endorses s deltaId vk ↔ Endorses s' deltaId vk := by
  rw [MeldaSec.endorses_iff hdelta hdigests hdigit, MeldaSec.endorses_iff hdelta hdigests hdigit]
  simp only [holdsSignature_congr (MapAdapter.readObject_congr (h.endorsement vk.toBytes))]

namespace TrustAdapter

theorem authorisedEndorsers_congr (hdelta : DeltaIdLaws) (hdigests : EndorsementKey.DigestLaw)
    (hdigit : DigitLaw) {t : TrustAdapter M} {s' : N} {deltaId : DeltaId}
    (h : AgreeOn t.inner s' deltaId) (data : Bytes) :
    (t.withInner s').authorisedEndorsers deltaId data = t.authorisedEndorsers deltaId data := by
  ext vk
  rw [mem_authorisedEndorsers, mem_authorisedEndorsers, h.endorses_iff hdelta hdigests hdigit]
  rfl

/-- The one object of a delta key is what a whole read of it can return. -/
theorem eq_of_readObject {t : TrustAdapter M} {key : String} (hkey : endsWith key ".delta" = true)
    {data out : Bytes} (hobj : MapAdapter.objects t.inner key = some data)
    (hread : t.readObject key 0 0 = .ok out) : out = data := by
  have hdata := ((readObject_eq_ok_iff hkey).mp hread).1
  rw [MapAdapter.readObject_some hobj] at hdata
  exact (Outcome.ok.inj hdata).symm

/-- A whole read of a stored delta, when its name and its object are known. -/
theorem readObject_stored {t : TrustAdapter M} {key : String} (hkey : endsWith key ".delta" = true)
    {deltaId : DeltaId} (hid : DeltaId.fromStr key = .ok deltaId) {data : Bytes}
    (hobj : MapAdapter.objects t.inner key = some data) :
    (t.readObject key 0 0 = .ok data ↔ t.Admits deltaId data) ∧
      (t.readObject key 0 0 ≠ .panic ↔ (t.Gated deltaId → ¬ Derails t.inner deltaId)) := by
  have hdata := MapAdapter.readObject_some hobj
  constructor
  · simp [readObject_of_fromStr hkey hid, hdata]
  · rw [ne_eq, readObject_eq_panic_iff hkey (MapAdapter.listObjects_ne_panic _ _)
      (MapAdapter.readObject_ne_panic _)]
    simp [hdata, hid]

/-- Over a map, a gated delta is admitted by a clean scan and enough
endorsers. -/
theorem admits_iff_of_gated {t : TrustAdapter M} {deltaId : DeltaId} (hgated : t.Gated deltaId)
    {data : Bytes} :
    t.Admits deltaId data ↔ CleanScan t.inner deltaId ∧
      t.endorsementMode.rule (t.authorisedEndorsers deltaId data).card
        t.keystore.trustedKeyCount := by
  have hlist := MapAdapter.listObjects_ne_panic t.inner ".sig"
  simp only [Admits, hgated, hgated.1, hlist, ne_eq, not_false_eq_true, true_and, forall_const]

/-- A stored delta whose name is read as `parsed` has the same outcome in two
stores exactly when it is not gated, or neither scan derails and both scans let
it through or none does. -/
theorem sameOutcome_of_fromStr (t : TrustAdapter M) (s' : N) {key : String}
    (hkey : endsWith key ".delta" = true) {parsed : DeltaId}
    (hid : DeltaId.fromStr key = .ok parsed) {data : Bytes}
    (hobj : MapAdapter.objects t.inner key = some data)
    (hobj' : MapAdapter.objects s' key = some data) :
    SameOutcome (t.readObject key 0 0) ((t.withInner s').readObject key 0 0) ↔
      (t.Gated parsed →
        ¬ Derails t.inner parsed ∧ ¬ Derails s' parsed ∧
          (CleanScan t.inner parsed ∧ t.endorsementMode.rule
              (t.authorisedEndorsers parsed data).card t.keystore.trustedKeyCount ↔
            CleanScan s' parsed ∧ t.endorsementMode.rule
              ((t.withInner s').authorisedEndorsers parsed data).card
              t.keystore.trustedKeyCount)) := by
  obtain ⟨hok, hpanic⟩ := readObject_stored hkey hid hobj
  obtain ⟨hok', hpanic'⟩ := readObject_stored (t := t.withInner s') hkey hid hobj'
  rw [sameOutcome_iff (fun _ => eq_of_readObject hkey hobj)
    (fun _ => eq_of_readObject (t := t.withInner s') hkey hobj'), hok, hok', hpanic, hpanic']
  by_cases hgated : t.Gated parsed
  · have hgated' : (t.withInner s').Gated parsed := hgated
    rw [admits_iff_of_gated hgated, admits_iff_of_gated hgated']
    simp only [hgated, hgated', forall_const]
    rfl
  · have hgated' : ¬ (t.withInner s').Gated parsed := hgated
    have hadmits : t.Admits parsed data ↔ (t.withInner s').Admits parsed data := by
      simp only [Admits, hgated, hgated', false_implies, and_true]
      rfl
    simp only [hgated, hgated', hadmits, false_implies, and_self]

/-- A delta has the same outcome in two stores that agree on it exactly when
it is not stored, or the parser of its name does not panic and what it returns
is not gated, or neither scan derails and both stores let it through or none
does.  A name that is read as the delta itself has the same endorsers in both
stores, so that the scans decide alone. -/
theorem sameOutcome_readObject_iff (hdelta : DeltaIdLaws) (hdigests : EndorsementKey.DigestLaw)
    (hdigit : DigitLaw) (t : TrustAdapter M) (s' : N) {deltaId : DeltaId}
    (hagree : AgreeOn t.inner s' deltaId) :
    SameOutcome (t.readObject deltaId.key 0 0) ((t.withInner s').readObject deltaId.key 0 0) ↔
      ∀ data, MapAdapter.objects t.inner deltaId.key = some data →
        DeltaId.fromStr deltaId.key ≠ .panic ∧
          ∀ parsed, DeltaId.fromStr deltaId.key = .ok parsed → t.Gated parsed →
            ¬ Derails t.inner parsed ∧ ¬ Derails s' parsed ∧
              (parsed = deltaId →
                t.endorsementMode.rule (t.authorisedEndorsers parsed data).card
                    t.keystore.trustedKeyCount →
                  (CleanScan t.inner parsed ↔ CleanScan s' parsed)) ∧
              (parsed ≠ deltaId →
                (CleanScan t.inner parsed ∧ t.endorsementMode.rule
                    (t.authorisedEndorsers parsed data).card t.keystore.trustedKeyCount ↔
                  CleanScan s' parsed ∧ t.endorsementMode.rule
                    ((t.withInner s').authorisedEndorsers parsed data).card
                    t.keystore.trustedKeyCount)) := by
  have hkey := hdelta.endsWith_key deltaId
  have hinner : (t.withInner s').inner = s' := rfl
  cases hobj : MapAdapter.objects t.inner deltaId.key with
  | none =>
    obtain ⟨e, he⟩ := MapAdapter.readObject_none hobj
    obtain ⟨e', he'⟩ := MapAdapter.readObject_none (hagree.delta ▸ hobj)
    have herr : t.readObject deltaId.key 0 0 = .err e := by
      rw [readObject_whole t hkey, he, Outcome.err_bind]
    have herr' : (t.withInner s').readObject deltaId.key 0 0 = .err e' := by
      rw [readObject_whole (t.withInner s') hkey, hinner, he', Outcome.err_bind]
    simp [herr, herr', SameOutcome]
  | some data =>
    have hobj' : MapAdapter.objects s' deltaId.key = some data := hagree.delta ▸ hobj
    simp only [Option.some.injEq, forall_eq']
    cases hid : DeltaId.fromStr deltaId.key with
    | panic =>
      have hpanic : t.readObject deltaId.key 0 0 = .panic := by
        rw [readObject_whole t hkey, MapAdapter.readObject_some hobj, Outcome.ok_bind, hid]
      simp [hpanic, SameOutcome]
    | err e =>
      have herr : t.readObject deltaId.key 0 0 = .err "invalid delta" := by
        rw [readObject_whole t hkey, MapAdapter.readObject_some hobj, Outcome.ok_bind, hid]
      have herr' : (t.withInner s').readObject deltaId.key 0 0 = .err "invalid delta" := by
        rw [readObject_whole (t.withInner s') hkey, hinner, MapAdapter.readObject_some hobj',
          Outcome.ok_bind, hid]
      simp [herr, herr', SameOutcome]
    | ok parsed =>
      rw [sameOutcome_of_fromStr t s' hkey hid hobj hobj']
      simp only [ne_eq, reduceCtorEq, not_false_eq_true, true_and, Outcome.ok.injEq, forall_eq']
      refine imp_congr_right fun _ => and_congr_right fun _ => and_congr_right fun _ => ?_
      by_cases hsame : parsed = deltaId
      · subst hsame
        rw [authorisedEndorsers_congr hdelta hdigests hdigit hagree data]
        simp only [and_congr_left_iff, forall_const, not_true_eq_false, false_implies, and_true]
      · simp only [hsame, false_implies, true_and, not_false_eq_true, forall_const]

end TrustAdapter

end

section

open Reference

/-- The written names about the first sample delta start with its index. -/
theorem agreeOn_storeWith {name : String} (hname : name.toList.head? ≠ some '1')
    (bytes : Bytes) : AgreeOn sampleStore (storeWith name bytes) (sampleDelta 1) := by
  have hagree : ∀ other : String, other.toList.head? = some '1' →
      MapAdapter.objects sampleStore other
        = MapAdapter.objects (storeWith name bytes) other := by
    intro other hother
    have hne : other ≠ name := fun heq => hname (heq ▸ hother)
    rw [storeWith, MapAdapter.objects_writeObject, Function.update_of_ne hne]
  refine ⟨hagree _ (by decide), fun pubkey => hagree _ ?_⟩
  have hkey : (sampleDelta 1).key = "1-aa.delta" := by decide
  rw [EndorsementKey.fileName, hkey]
  simp

/-- An endorsement of another delta changes no outcome, however bad it is. -/
theorem sameOutcome_readObject_iff_sample :
    SameOutcome ((sampleTrust .single).readObject (sampleDelta 1).key 0 0)
      (((sampleTrust .single).withInner (storeWith otherName [])).readObject
        (sampleDelta 1).key 0 0) := by
  have hclean := endorsedExactly_sampleStore.cleanScan deltaIdLaws digitLaw signatureLaw
    base64Law serdeSliceLaw (sampleDelta 1)
  have hclean' : CleanScan (storeWith otherName []) (sampleDelta 1) :=
    (addsObject_storeWith (by decide)).cleanScan hclean fun _ => passes_otherName _
  have hid := fromKeyLaw (sampleDelta 1)
  refine (TrustAdapter.sameOutcome_readObject_iff deltaIdLaws digestLaw digitLaw
    (sampleTrust .single) (storeWith otherName []) (agreeOn_storeWith (by decide) _)).mpr
    fun data _ => ⟨by simp [hid], fun parsed hparsed _ => ?_⟩
  obtain rfl := Outcome.ok.inj (hid.symm.trans hparsed)
  exact ⟨hclean.not_derails, hclean'.not_derails, fun _ _ => iff_of_true hclean hclean',
    fun hne => absurd rfl hne⟩

/-- A foreign file whose name contains a short endorsement name hides the
delta, although no object of the delta or of its endorsements differs. -/
theorem foreignName_changes_outcome :
    AgreeOn sampleStore (storeWith "zz1-aa.delta.bb.sig" []) (sampleDelta 1) ∧
      ¬ SameOutcome ((sampleTrust .single).readObject (sampleDelta 1).key 0 0)
        (((sampleTrust .single).withInner (storeWith "zz1-aa.delta.bb.sig" [])).readObject
          (sampleDelta 1).key 0 0) := by
  have hadd : AddsObject sampleStore (storeWith "zz1-aa.delta.bb.sig" []) "zz1-aa.delta.bb.sig" :=
    addsObject_storeWith (by decide)
  have hkey : EndorsementKey.fromStr "zz1-aa.delta.bb.sig" = .ok ⟨sampleDelta 1, [187]⟩ := rfl
  have hread := readObject_sampleTrust .single (Or.inl rfl)
  refine ⟨agreeOn_storeWith (by decide) _, ?_⟩
  rintro (⟨data, -, hread'⟩ | ⟨⟨e, herr⟩, -⟩)
  · exact not_readObject_of_short_key (by decide) (hadd.mem_sigNames (by decide)) hkey data hread'
  · simp [hread] at herr

end

end MeldaSec
