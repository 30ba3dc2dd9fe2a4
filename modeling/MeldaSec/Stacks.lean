import MeldaSec.Authorisation
import MeldaSec.Encryption
import MeldaSec.ReadPath

/-!
# Trust adapters around trust adapters

A `TrustAdapter` is an adapter, so it can wrap another one.  `stack` builds
the composition for a list of configurations, the first of them outermost.

The layers read the same endorsements, since names that are not those of
deltas pass through them (`PassesThrough`), and so each layer decides as if it
were alone over the base store.

* `stack_readObject_iff`: a whole read through the stack returns the bytes
  that every layer alone returns, whatever the order of the layers.
* `stack_readObject_part_iff`: a read of a part of a delta is gated by every
  layer but the outermost one.
* `stack_requests`: a sequence of calls changes the base store as its writes
  do that pass the check of every layer, and as its endorsements do.
-/

namespace MeldaSec

open Rust

section

variable [Crates]

/-- The type of the layers around a store. -/
def Stack (A : Type) : List (TrustAdapter Unit) → Type
  | [] => A
  | _ :: layers => TrustAdapter (Stack A layers)

/-- The store `base` with the layers around it. -/
def stack {A : Type} (base : A) : (layers : List (TrustAdapter Unit)) → Stack A layers
  | [] => base
  | layer :: layers => layer.withInner (stack base layers)

instance stackAdapter {A : Type} [Adapter A] [SerdeSlice EndorsementRecord] :
    (layers : List (TrustAdapter Unit)) → Adapter (Stack A layers)
  | [] => inferInstanceAs (Adapter A)
  | _ :: layers =>
    let _ := stackAdapter (A := A) layers
    inferInstanceAs (Adapter (TrustAdapter (Stack A layers)))

end

section

variable [Crates] {A S : Type} [Adapter A] [Adapter S]

omit [Crates] in
/-- The upper store lists the same endorsements as the lower one, and holds
the same objects but for the deltas. -/
structure PassesThrough (s : S) (base : A) : Prop where
  list : Adapter.listObjects s ".sig" = Adapter.listObjects base ".sig"
  read : ∀ name, endsWith name ".delta" = false →
    Adapter.readObject s name 0 0 = Adapter.readObject base name 0 0

variable [SerdeSlice EndorsementRecord]

omit [SerdeSlice EndorsementRecord] in
theorem endsWith_delta_fileName (key : EndorsementKey) :
    endsWith key.fileName ".delta" = false := by
  rw [Bool.eq_false_iff]
  intro hdelta
  have hsig := endsWith_sig_of_delta hdelta
  rw [EndorsementKey.endsWith_fileName] at hsig
  cases hsig

/-- What is not a delta passes the gate. -/
theorem TrustAdapter.readObject_of_not_delta (t : TrustAdapter A) {name : String}
    (hname : endsWith name ".delta" = false) :
    t.readObject name 0 0 = Adapter.readObject t.inner name 0 0 := by
  simp only [readObject, hname, Bool.not_false, Bool.true_or, if_true]
  cases Adapter.readObject t.inner name 0 0 <;> rfl

namespace PassesThrough

variable {s : S} {base : A} (h : PassesThrough s base)
include h

/-- A further layer lets the same names through. -/
theorem layer (layer : TrustAdapter Unit) : PassesThrough (layer.withInner s) base where
  list := h.list
  read name hname := by
    rw [← h.read name hname]
    exact (layer.withInner s).readObject_of_not_delta hname

theorem readEndorsementRecord_eq (layer : TrustAdapter Unit) (key : EndorsementKey) :
    (layer.withInner s).readEndorsementRecord key
      = (layer.withInner base).readEndorsementRecord key := by
  have hread := h.read key.fileName (endsWith_delta_fileName key)
  unfold TrustAdapter.readEndorsementRecord
  exact congrArg (· >>= _) hread

theorem endorsementVerdict_eq (layer : TrustAdapter Unit) (deltaId : DeltaId) (name : String) :
    (layer.withInner s).endorsementVerdict deltaId name
      = (layer.withInner base).endorsementVerdict deltaId name := by
  unfold TrustAdapter.endorsementVerdict
  simp only [h.readEndorsementRecord_eq]
  rfl

/-- A layer finds the same endorsements in both stores. -/
theorem fetchEndorsements_eq (layer : TrustAdapter Unit) (deltaId : DeltaId) :
    (layer.withInner s).fetchEndorsements deltaId
      = (layer.withInner base).fetchEndorsements deltaId := by
  have hlist : Adapter.listObjects (layer.withInner s).inner ".sig"
      = Adapter.listObjects (layer.withInner base).inner ".sig" := h.list
  unfold TrustAdapter.fetchEndorsements
  simp only [hlist, h.endorsementVerdict_eq]

/-- So it decides alike over both of them. -/
theorem gate_eq (layer : TrustAdapter Unit) (deltaId : DeltaId) (data : Bytes) :
    (layer.withInner s).gate deltaId data = (layer.withInner base).gate deltaId data := by
  unfold TrustAdapter.gate
  rw [h.fetchEndorsements_eq]
  rfl

end PassesThrough

end

section

variable [Crates] {A : Type} [Adapter A] [SerdeSlice EndorsementRecord]

/-- Every stack lets the endorsements through. -/
theorem passesThrough_stack (base : A) (layers : List (TrustAdapter Unit)) :
    PassesThrough (stack base layers) base := by
  induction layers with
  | nil => exact ⟨rfl, fun _ _ => rfl⟩
  | cons layer layers ih => exact ih.layer layer

/-! ## Reads -/

/-- A whole read of a delta runs the gate of the outermost layer behind the
read of the others. -/
theorem stack_readObject_cons (base : A) (layer : TrustAdapter Unit)
    (layers : List (TrustAdapter Unit)) {key : String} (hkey : endsWith key ".delta" = true) :
    Adapter.readObject (stack base (layer :: layers)) key 0 0 = (do
      let data ← Adapter.readObject (stack base layers) key 0 0
      match DeltaId.fromStr key with
      | .panic => .panic
      | .err _ => .err "invalid delta"
      | .ok deltaId => (layer.withInner base).gate deltaId data) := by
  have hgate := (passesThrough_stack base layers).gate_eq layer
  have hread := (layer.withInner (stack base layers)).readObject_whole hkey
  simp only [hgate] at hread
  exact hread

/-- A stack returns a delta exactly when the base store does, and every layer
does that is put around the base store alone. -/
theorem stack_readObject_iff (base : A) (layers : List (TrustAdapter Unit)) {key : String}
    (hkey : endsWith key ".delta" = true) (data : Bytes) :
    Adapter.readObject (stack base layers) key 0 0 = .ok data ↔
      Adapter.readObject base key 0 0 = .ok data ∧
        ∀ layer ∈ layers, (layer.withInner base).readObject key 0 0 = .ok data := by
  have hlayer : ∀ layer : TrustAdapter Unit,
      (layer.withInner base).readObject key 0 0 = .ok data ↔
        Adapter.readObject base key 0 0 = .ok data ∧
          ∃ deltaId, DeltaId.fromStr key = .ok deltaId ∧
            (layer.withInner base).Admits deltaId data :=
    fun layer => (layer.withInner base).readObject_eq_ok_iff hkey
  induction layers with
  | nil =>
    constructor
    · intro hread
      exact ⟨hread, fun _ hmem => absurd hmem List.not_mem_nil⟩
    · intro hread
      exact hread.1
  | cons layer layers ih =>
    rw [stack_readObject_cons base layer layers hkey, Outcome.bind_eq_ok_iff]
    rw [List.forall_mem_cons, hlayer layer]
    cases hid : DeltaId.fromStr key with
    | panic => simp
    | err e => simp
    | ok deltaId =>
      simp only [TrustAdapter.gate_eq_ok_iff, Outcome.ok.injEq, exists_eq_left']
      constructor
      · intro ⟨data', hread, heq, hadmits⟩
        rw [← heq] at hread hadmits
        obtain ⟨hbase, hlayers⟩ := ih.mp hread
        exact ⟨hbase, ⟨hbase, hadmits⟩, hlayers⟩
      · intro ⟨hbase, ⟨_, hadmits⟩, hlayers⟩
        exact ⟨data, ih.mpr ⟨hbase, hlayers⟩, rfl, hadmits⟩

end

section

open Reference

/-- The sample configuration without a store. -/
def sampleLayer (mode : EndorsementMode) : TrustAdapter Unit := (sampleTrust mode).withInner ()

/-- Two layers in different modes return the sample delta. -/
theorem stack_readObject_iff_sample :
    Adapter.readObject (stack sampleStore [sampleLayer .single, sampleLayer .unanimous])
      (sampleDelta 1).key 0 0 = .ok sampleData := by
  rw [stack_readObject_iff sampleStore _ (endsWith_key _)]
  have hread : ∀ mode, ((sampleLayer mode).withInner sampleStore).readObject
      (sampleDelta 1).key 0 0 = .ok sampleData :=
    fun mode => readObject_sampleTrust mode (Or.inl rfl)
  obtain ⟨hbase, -⟩ := (TrustAdapter.readObject_eq_ok_iff (endsWith_key _)).mp (hread .single)
  refine ⟨hbase, fun layer hlayer => ?_⟩
  rcases List.mem_pair.mp hlayer with h | h
  · rw [h]
    exact hread .single
  · rw [h]
    exact hread .unanimous

end

section

variable [Crates] {A : Type} [Adapter A] [SerdeSlice EndorsementRecord]

/-- A part of a delta comes out of a stack exactly when the layers below the
outermost one return the whole delta and the part lies inside of it. -/
theorem stack_readObject_part_iff (base : A) (layer : TrustAdapter Unit)
    (layers : List (TrustAdapter Unit)) {key : String} (hkey : endsWith key ".delta" = true)
    {offset length : UInt64} (hpart : ¬ (offset = 0 ∧ length = 0)) (out : Bytes) :
    Adapter.readObject (stack base (layer :: layers)) key offset length = .ok out ↔
      ∃ data, Adapter.readObject base key 0 0 = .ok data ∧
        (∀ other ∈ layers, (other.withInner base).readObject key 0 0 = .ok data) ∧
        TrustAdapter.InRange data offset length ∧
        out = (data.drop offset.toNat).take length.toNat := by
  have hread := (layer.withInner (stack base layers)).readObject_part key hpart
  have hstack : Adapter.readObject (stack base (layer :: layers)) key offset length = (do
      let data ← Adapter.readObject (stack base layers) key 0 0
      sliceOrErr "invalid_slice" data offset length) := hread
  rw [hstack, Outcome.bind_eq_ok_iff]
  simp only [stack_readObject_iff base layers hkey, sliceOrErr_eq_ok_iff, TrustAdapter.InRange]
  constructor
  · intro ⟨data, ⟨hbase, hlayers⟩, hlt, hle, hout⟩
    exact ⟨data, hbase, hlayers, ⟨hlt, hle⟩, hout⟩
  · intro ⟨data, hbase, hlayers, ⟨hlt, hle⟩, hout⟩
    exact ⟨data, ⟨hbase, hlayers⟩, hlt, hle, hout⟩

end

section

open Reference

/-- The first byte of the sample delta comes out of a stack whose outermost
layer blacklists the delta. -/
theorem stack_readObject_part_iff_sample :
    Adapter.readObject (stack sampleStore [blacklistingTrust.withInner (), sampleLayer .unanimous])
      (sampleDelta 1).key 0 1 = .ok (sampleData.take 1) := by
  have hpart : ¬ ((0 : UInt64) = 0 ∧ (1 : UInt64) = 0) := by decide
  have hread : ((sampleLayer .unanimous).withInner sampleStore).readObject
      (sampleDelta 1).key 0 0 = .ok sampleData := readObject_sampleTrust .unanimous (Or.inl rfl)
  obtain ⟨hbase, -⟩ := (TrustAdapter.readObject_eq_ok_iff (endsWith_key _)).mp hread
  rw [stack_readObject_part_iff sampleStore _ _ (endsWith_key _) hpart]
  refine ⟨sampleData, hbase, fun layer hlayer => ?_, ⟨by decide, by decide⟩, rfl⟩
  rw [List.mem_singleton.mp hlayer]
  exact hread

end

section

variable [Crates] {A : Type} [Adapter A] [SerdeSlice EndorsementRecord]

/-! ## Calls that change the store -/

omit [Adapter A] [SerdeSlice EndorsementRecord] in
/-- The write passes the check of every layer. -/
def accepts (layers : List (TrustAdapter Unit)) (key : String) (data : Bytes) : Bool :=
  layers.all fun layer =>
    match layer.checkWrite key data with
    | .ok () => true
    | _ => false

omit [Adapter A] [SerdeSlice EndorsementRecord] in
theorem accepts_cons_iff {layer : TrustAdapter Unit} {layers : List (TrustAdapter Unit)}
    {key : String} {data : Bytes} :
    accepts (layer :: layers) key data = true ↔
      layer.checkWrite key data = .ok () ∧ accepts layers key data = true := by
  unfold accepts
  rw [List.all_cons, Bool.and_eq_true]
  cases layer.checkWrite key data <;> simp

omit [Adapter A] [SerdeSlice EndorsementRecord] in
/-- No layer checks an object that is not a delta. -/
theorem accepts_of_not_delta (layers : List (TrustAdapter Unit)) {key : String}
    (hkey : endsWith key ".delta" = false) (data : Bytes) : accepts layers key data = true := by
  induction layers with
  | nil => rfl
  | cons layer layers ih =>
    rw [accepts_cons_iff]
    exact ⟨by simp [TrustAdapter.checkWrite, hkey], ih⟩

theorem stack_writeObject_of_accepts (base : A) {layers : List (TrustAdapter Unit)}
    {key : String} {data : Bytes} (h : accepts layers key data = true) :
    Adapter.writeObject (stack base layers) key data
      = ((Adapter.writeObject base key data).1,
          stack (Adapter.writeObject base key data).2 layers) := by
  induction layers with
  | nil => rfl
  | cons layer layers ih =>
    obtain ⟨hcheck, haccepts⟩ := accepts_cons_iff.mp h
    show (layer.withInner (stack base layers)).writeObject key data = _
    have hlayer : (layer.withInner (stack base layers)).checkWrite key data = .ok () := hcheck
    have hinner : Adapter.writeObject (layer.withInner (stack base layers)).inner key data
        = ((Adapter.writeObject base key data).1,
            stack (Adapter.writeObject base key data).2 layers) := ih haccepts
    unfold TrustAdapter.writeObject
    rw [hlayer]
    simp only [hinner]
    rfl

/-- A write that a layer refuses is an error and leaves the store alone. -/
theorem stack_writeObject_of_not_accepts (base : A) {layers : List (TrustAdapter Unit)}
    {key : String} {data : Bytes} (h : accepts layers key data = false) :
    ∃ e, Adapter.writeObject (stack base layers) key data = (.err e, stack base layers) := by
  induction layers with
  | nil => cases h
  | cons layer layers ih =>
    have hcheck : (layer.withInner (stack base layers)).checkWrite key data
        = layer.checkWrite key data := rfl
    show ∃ e, (layer.withInner (stack base layers)).writeObject key data = _
    unfold TrustAdapter.writeObject
    rw [hcheck]
    cases hlayer : layer.checkWrite key data with
    | panic => exact absurd hlayer (layer.checkWrite_ne_panic key data)
    | err e => exact ⟨e, rfl⟩
    | ok _ =>
      have hrest : accepts layers key data = false := by
        rw [Bool.eq_false_iff] at h ⊢
        intro haccepts
        exact h (accepts_cons_iff.mpr ⟨hlayer, haccepts⟩)
      obtain ⟨e, hwrite⟩ := ih hrest
      have hinner : Adapter.writeObject (layer.withInner (stack base layers)).inner key data
          = (.err e, stack base layers) := hwrite
      refine ⟨e, ?_⟩
      simp only [hinner]
      rfl

/-- An endorsement through a stack is the endorsement of the base store. -/
theorem stack_endorse (base : A) (layer : TrustAdapter Unit) (layers : List (TrustAdapter Unit))
    (deltaId : DeltaId) :
    (layer.withInner (stack base layers)).endorse deltaId
      = (((layer.withInner base).endorse deltaId).1,
          stack ((layer.withInner base).endorse deltaId).2 layers) := by
  have hpasses := passesThrough_stack base layers
  have hpresent : ∀ sk, (layer.withInner (stack base layers)).alreadyEndorsed sk deltaId
      = (layer.withInner base).alreadyEndorsed sk deltaId := by
    intro sk
    unfold TrustAdapter.alreadyEndorsed
    rw [hpasses.readEndorsementRecord_eq]
  have hwrite : ∀ sk, (layer.withInner (stack base layers)).writeEndorsement sk deltaId
      = (((layer.withInner base).writeEndorsement sk deltaId).1,
          stack ((layer.withInner base).writeEndorsement sk deltaId).2 layers) := by
    intro sk
    unfold TrustAdapter.writeEndorsement
    cases SerdeSlice.toVec (TrustAdapter.signedRecord sk deltaId) with
    | error e => rfl
    | ok bytes =>
      exact stack_writeObject_of_accepts base
        (accepts_of_not_delta layers (endsWith_delta_fileName _) bytes)
  have hkey : (layer.withInner (stack base layers)).keystore.endorsementKey
      = (layer.withInner base).keystore.endorsementKey := rfl
  unfold TrustAdapter.endorse
  rw [hkey]
  cases (layer.withInner base).keystore.endorsementKey with
  | none => rfl
  | some sk =>
    simp only [hpresent sk, hwrite sk]
    cases (layer.withInner base).alreadyEndorsed sk deltaId with
    | panic => rfl
    | err e => rfl
    | ok present => cases present <;> rfl

/-- What a call of the outermost layer does to the base store. -/
def stackEffect (layer : TrustAdapter Unit) (layers : List (TrustAdapter Unit)) (base : A) :
    Request → A
  | .writeObject key data =>
    if accepts (layer :: layers) key data then (Adapter.writeObject base key data).2 else base
  | .endorse deltaId => ((layer.withInner base).endorse deltaId).2
  | _ => base

theorem stack_call (base : A) (layer : TrustAdapter Unit) (layers : List (TrustAdapter Unit))
    (request : Request) :
    ((layer.withInner (stack base layers)).call request).2
      = layer.withInner (stack (stackEffect layer layers base request) layers) := by
  cases request with
  | writeObject key data =>
    have heffect : stackEffect layer layers base (.writeObject key data)
        = if accepts (layer :: layers) key data then (Adapter.writeObject base key data).2
          else base := rfl
    show (Adapter.writeObject (stack base (layer :: layers)) key data).2 = _
    by_cases haccepts : accepts (layer :: layers) key data = true
    · rw [heffect, if_pos haccepts, stack_writeObject_of_accepts base haccepts]
      rfl
    · rw [heffect, if_neg haccepts]
      rw [Bool.not_eq_true] at haccepts
      obtain ⟨e, hwrite⟩ := stack_writeObject_of_not_accepts base haccepts
      rw [hwrite]
      rfl
  | endorse deltaId =>
    show TrustAdapter.withInner _ ((layer.withInner (stack base layers)).endorse deltaId).2 = _
    rw [stack_endorse]
    rfl
  | readObject key offset length => rfl
  | listObjects ext => rfl
  | fetchEndorsements deltaId => rfl
  | checkDelta deltaId => rfl

/-- After a sequence of calls of the outermost layer, the layers stand around
the base store with exactly the writes that all of them accept, and with the
endorsements of the outermost layer. -/
theorem stack_requests (base : A) (layer : TrustAdapter Unit) (layers : List (TrustAdapter Unit))
    (requests : List Request) :
    requests.foldl (fun t request => (TrustAdapter.call t request).2)
        (layer.withInner (stack base layers))
      = layer.withInner (stack (requests.foldl (stackEffect layer layers) base) layers) := by
  induction requests generalizing base with
  | nil => rfl
  | cons request requests ih =>
    rw [List.foldl_cons, List.foldl_cons, stack_call]
    exact ih _

end

end MeldaSec
