import MeldaSec.Stacks

/-!
# Encryption layers and trust layers

Both kinds of layers are adapters around adapters, so they can be put on each
other in any order.  Two adapters are interchangeable when every sequence of
whole reads, listings and writes goes alike on them.  A layer of either kind
turns interchangeable adapters into interchangeable ones
(`Interchangeable.trust` and `Interchangeable.encrypt`).

* `towers_answer_alike`: below the trust layers, any number of encryption
  layers makes no difference to any sequence of calls.
* `governance_inert`: above a trust layer, an encryption layer switches off
  the policy.  The trust layer looks for object identifiers in the blobs and
  finds none there, so its rules and its roles make no difference to any
  sequence of calls.
-/

namespace MeldaSec

open Rust

/-! ## Interchangeable adapters -/

section

variable {A B C : Type} [Adapter A] [Adapter B] [Adapter C]

/-- Related states look alike, and a write keeps states related. -/
structure Bisimulation (R : A → B → Prop) : Prop where
  look : ∀ {a b}, R a b → LookAlike a b
  write : ∀ {a b}, R a b → ∀ name bytes,
    Outcome.Agree (Adapter.writeObject a name bytes).1 (Adapter.writeObject b name bytes).1 ∧
      R (Adapter.writeObject a name bytes).2 (Adapter.writeObject b name bytes).2

/-- No sequence of calls tells the two adapters apart. -/
def Interchangeable (a : A) (b : B) : Prop := ∃ R : A → B → Prop, Bisimulation R ∧ R a b

theorem LookAlike.trans {a : A} {b : B} {c : C} (h : LookAlike a b) (h' : LookAlike b c) :
    LookAlike a c where
  read name := (h.read name).trans (h'.read name)
  list suffix := (h.list suffix).trans (h'.list suffix)

theorem Interchangeable.refl (a : A) : Interchangeable a a := by
  refine ⟨Eq, ⟨fun h => ?_, fun h name bytes => ?_⟩, rfl⟩
  · rw [h]
    exact ⟨fun name => Outcome.Agree.refl _, fun suffix => rfl⟩
  · rw [h]
    exact ⟨Outcome.Agree.refl _, rfl⟩

theorem Interchangeable.trans {a : A} {b : B} {c : C} (h : Interchangeable a b)
    (h' : Interchangeable b c) : Interchangeable a c := by
  obtain ⟨R, hR, hab⟩ := h
  obtain ⟨S, hS, hbc⟩ := h'
  refine ⟨fun a c => ∃ b, R a b ∧ S b c, ⟨?_, ?_⟩, b, hab, hbc⟩
  · intro a c hac
    obtain ⟨b, hab, hbc⟩ := hac
    exact (hR.look hab).trans (hS.look hbc)
  · intro a c hac name bytes
    obtain ⟨b, hab, hbc⟩ := hac
    obtain ⟨hresult, hnext⟩ := hR.write hab name bytes
    obtain ⟨hresult', hnext'⟩ := hS.write hbc name bytes
    exact ⟨hresult.trans hresult', _, hnext, hnext'⟩

/-- The same key over related stores. -/
def SameEncryption (R : A → B → Prop) (e : EncryptionAdapter A) (e' : EncryptionAdapter B) :
    Prop :=
  e.key = e'.key ∧ R e.inner e'.inner

/-- The same configuration over related stores. -/
def SameTrust [Crates] (R : A → B → Prop) (t : TrustAdapter A) (t' : TrustAdapter B) : Prop :=
  ∃ b, t' = t.withInner b ∧ R t.inner b

end

/-! ## An encryption layer -/

section

variable [Crates] [CipherCrates] [SerdeSlice EncryptedBlob] {A B : Type} [Adapter A] [Adapter B]
  {R : A → B → Prop}

omit [Crates] [Adapter A] [Adapter B] in
/-- What a layer encrypts and decrypts depends on the key. -/
theorem SameEncryption.encrypt_eq {e : EncryptionAdapter A} {e' : EncryptionAdapter B}
    (h : SameEncryption R e e') (plaintext : Bytes) :
    e.encrypt plaintext = e'.encrypt plaintext := by
  unfold EncryptionAdapter.encrypt
  rw [h.1]

omit [Crates] [Adapter A] [Adapter B] in
theorem SameEncryption.decrypt_eq {e : EncryptionAdapter A} {e' : EncryptionAdapter B}
    (h : SameEncryption R e e') (enc : Bytes) : e.decrypt enc = e'.decrypt enc := by
  unfold EncryptionAdapter.decrypt
  rw [h.1]

theorem Bisimulation.encrypt (hR : Bisimulation R) : Bisimulation (SameEncryption R) where
  look {e e'} h := by
    have hlook := hR.look h.2
    refine ⟨fun name => ?_, hlook.list⟩
    show Outcome.Agree (e.readObject name 0 0) (e'.readObject name 0 0)
    unfold EncryptionAdapter.readObject
    refine (hlook.read name).bind fun enc => ?_
    rw [h.decrypt_eq]
    exact Outcome.Agree.refl _
  write {e e'} h name bytes := by
    show Outcome.Agree (e.writeObject name bytes).1 (e'.writeObject name bytes).1 ∧
      SameEncryption R (e.writeObject name bytes).2 (e'.writeObject name bytes).2
    unfold EncryptionAdapter.writeObject
    rw [h.encrypt_eq]
    cases e'.encrypt bytes with
    | panic => exact ⟨.panic, h⟩
    | err error => exact ⟨.err _ _, h⟩
    | ok enc =>
      obtain ⟨hresult, hnext⟩ := hR.write h.2 name enc
      exact ⟨hresult, h.1, hnext⟩

/-- An encryption layer keeps adapters interchangeable. -/
theorem Interchangeable.encrypt {a : A} {b : B} (h : Interchangeable a b) (key : FixedBytes 32) :
    Interchangeable (EncryptionAdapter.mk a key) (EncryptionAdapter.mk b key) := by
  obtain ⟨R, hR, hab⟩ := h
  exact ⟨SameEncryption R, hR.encrypt, rfl, hab⟩

end

/-! ## A trust layer -/

section

variable [Crates] [SerdeSlice EndorsementRecord] {A B : Type} [Adapter A] [Adapter B]
  {R : A → B → Prop} (hR : Bisimulation R)
include hR

omit [SerdeSlice EndorsementRecord] in
/-- A strict write is checked alike, and a write reaches both stores. -/
theorem SameTrust.writeObject {t : TrustAdapter A} {t' : TrustAdapter B} (h : SameTrust R t t')
    (key : String) (data : Bytes) :
    Outcome.Agree (t.writeObject key data).1 (t'.writeObject key data).1 ∧
      SameTrust R (t.writeObject key data).2 (t'.writeObject key data).2 := by
  obtain ⟨b, ht', hb⟩ := h
  have hcheck : t'.checkWrite key data = t.checkWrite key data := by
    rw [ht']
    rfl
  unfold TrustAdapter.writeObject
  rw [hcheck]
  cases t.checkWrite key data with
  | panic => exact ⟨.panic, b, ht', hb⟩
  | err e => exact ⟨.err _ _, b, ht', hb⟩
  | ok _ =>
    obtain ⟨hresult, hnext⟩ := hR.write hb key data
    rw [ht']
    exact ⟨hresult, _, rfl, hnext⟩

theorem SameTrust.writeEndorsement {t : TrustAdapter A} {b : B} (hb : R t.inner b)
    (sk : SigningKey) (deltaId : DeltaId) :
    Outcome.Agree (t.writeEndorsement sk deltaId).1
        ((t.withInner b).writeEndorsement sk deltaId).1 ∧
      R (t.writeEndorsement sk deltaId).2 ((t.withInner b).writeEndorsement sk deltaId).2 := by
  unfold TrustAdapter.writeEndorsement
  cases SerdeSlice.toVec (TrustAdapter.signedRecord sk deltaId) with
  | error e => exact ⟨.err _ _, hb⟩
  | ok bytes => exact hR.write hb (TrustAdapter.ownEndorsementKey sk deltaId).fileName bytes

/-- The stored record is judged alike, and a new one reaches both stores. -/
theorem SameTrust.endorse {t : TrustAdapter A} {b : B} (hb : R t.inner b) (deltaId : DeltaId) :
    Outcome.Agree (t.endorse deltaId).1 ((t.withInner b).endorse deltaId).1 ∧
      R (t.endorse deltaId).2 ((t.withInner b).endorse deltaId).2 := by
  have hkey : (t.withInner b).keystore.endorsementKey = t.keystore.endorsementKey := rfl
  unfold TrustAdapter.endorse
  rw [hkey]
  cases t.keystore.endorsementKey with
  | none => exact ⟨.err _ _, hb⟩
  | some sk =>
    have hpresent := TrustAdapter.alreadyEndorsed_agree (hR.look hb) sk deltaId
    simp only
    generalize t.alreadyEndorsed sk deltaId = x at hpresent ⊢
    generalize (t.withInner b).alreadyEndorsed sk deltaId = y at hpresent ⊢
    cases hpresent with
    | panic => exact ⟨.panic, hb⟩
    | err e e' => exact ⟨.err _ _, hb⟩
    | ok present =>
      cases present with
      | true => exact ⟨.ok (), hb⟩
      | false => exact SameTrust.writeEndorsement hR hb sk deltaId

/-- Every call of a trust layer goes alike. -/
theorem SameTrust.call {t : TrustAdapter A} {t' : TrustAdapter B} (h : SameTrust R t t')
    (request : Request) :
    Reply.Agree (t.call request).1 (t'.call request).1 ∧
      SameTrust R (t.call request).2 (t'.call request).2 := by
  cases request with
  | writeObject key data =>
    obtain ⟨hresult, hnext⟩ := h.writeObject hR key data
    exact ⟨.unit hresult, hnext⟩
  | readObject key offset length =>
    obtain ⟨b, ht', hb⟩ := h
    have hread := TrustAdapter.readObject_agree (hR.look hb) key offset length
    rw [ht']
    exact ⟨.bytes hread, b, rfl, hb⟩
  | listObjects ext =>
    obtain ⟨b, ht', hb⟩ := h
    have hlist := (hR.look hb).list ext
    rw [ht']
    exact ⟨.names (.of_eq hlist), b, rfl, hb⟩
  | endorse deltaId =>
    obtain ⟨b, ht', hb⟩ := h
    obtain ⟨hresult, hnext⟩ := SameTrust.endorse hR hb deltaId
    rw [ht']
    exact ⟨.unit hresult, _, rfl, hnext⟩
  | fetchEndorsements deltaId =>
    obtain ⟨b, ht', hb⟩ := h
    have hfetch := TrustAdapter.fetchEndorsements_agree (hR.look hb) deltaId
    rw [ht']
    exact ⟨.endorsements hfetch, b, rfl, hb⟩
  | checkDelta deltaId =>
    obtain ⟨b, ht', hb⟩ := h
    have hcheck := TrustAdapter.checkDelta_agree (hR.look hb) deltaId
    rw [ht']
    exact ⟨.verdict hcheck, b, rfl, hb⟩

theorem Bisimulation.trust : Bisimulation (SameTrust R) where
  look {t t'} h := by
    obtain ⟨b, ht', hb⟩ := h
    have hlook := hR.look hb
    rw [ht']
    exact ⟨fun name => TrustAdapter.readObject_agree hlook name 0 0, hlook.list⟩
  write h name bytes := h.writeObject hR name bytes

omit hR in
/-- A trust layer keeps adapters interchangeable. -/
theorem Interchangeable.trust {a : A} {b : B} (h : Interchangeable a b)
    (layer : TrustAdapter Unit) :
    Interchangeable (layer.withInner a) (layer.withInner b) := by
  obtain ⟨R, hR, hab⟩ := h
  exact ⟨SameTrust R, hR.trust, b, rfl, hab⟩

omit hR in
/-- So do any number of trust layers. -/
theorem Interchangeable.stack {a : A} {b : B} (h : Interchangeable a b)
    (layers : List (TrustAdapter Unit)) :
    Interchangeable (stack a layers) (stack b layers) := by
  induction layers with
  | nil => exact h
  | cons layer layers ih => exact ih.trust layer

omit hR in
/-- A trust layer over interchangeable adapters answers every sequence of
calls alike. -/
theorem Interchangeable.replies {a : A} {b : B} (h : Interchangeable a b)
    (layer : TrustAdapter Unit) (requests : List Request) :
    List.Forall₂ Reply.Agree (replies TrustAdapter.call (layer.withInner a) requests)
      (replies TrustAdapter.call (layer.withInner b) requests) := by
  obtain ⟨R, hR, hab⟩ := h
  exact replies_forall₂ (fun t t' request _ hsame => SameTrust.call hR hsame request)
    ⟨b, rfl, hab⟩

end

/-! ## Encryption layers below trust layers -/

section

variable [CipherCrates] [SerdeSlice EncryptedBlob]

omit [CipherCrates] [SerdeSlice EncryptedBlob] in
/-- The type of a store with encryption layers around it. -/
def Encrypted (A : Type) : List (FixedBytes 32) → Type
  | [] => A
  | _ :: keys => EncryptionAdapter (Encrypted A keys)

/-- The store `base` with an encryption layer for each key. -/
def encrypted {A : Type} (base : A) : (keys : List (FixedBytes 32)) → Encrypted A keys
  | [] => base
  | key :: keys => ⟨encrypted base keys, key⟩

variable [Crates]

instance encryptedAdapter {A : Type} [Adapter A] :
    (keys : List (FixedBytes 32)) → Adapter (Encrypted A keys)
  | [] => inferInstanceAs (Adapter A)
  | _ :: keys =>
    let _ := encryptedAdapter (A := A) keys
    inferInstanceAs (Adapter (EncryptionAdapter (Encrypted A keys)))

variable {A : Type} [MapAdapter A] (hcipher : CipherLaw)
  (hserde : SerdeSliceLaw EncryptedBlob) {base : A}
  (hempty : ∀ name, MapAdapter.objects base name = none) (hlist : ListsByName base)
include hcipher hserde hempty hlist

theorem bisimulation_mirrors : Bisimulation (Mirrors (A := A) base) where
  look h := h.lookAlike hcipher hserde hempty hlist
  write {plain e} h name bytes := by
    obtain ⟨hresult, hnext⟩ := h.write hcipher hserde name bytes
    rw [MapAdapter.writeObject_fst, hresult]
    exact ⟨.ok (), hnext⟩

/-- Every encryption layer is read through like the store below it. -/
theorem interchangeable_encrypted (keys : List (FixedBytes 32)) :
    Interchangeable base (encrypted base keys) := by
  induction keys with
  | nil => exact Interchangeable.refl base
  | cons key keys ih =>
    have hone : Interchangeable base (EncryptionAdapter.mk base key) :=
      ⟨Mirrors base, bisimulation_mirrors hcipher hserde hempty hlist, [], rfl, rfl⟩
    exact hone.trans (ih.encrypt key)

/-- From an empty store on, trust layers give the same replies to every
sequence of calls, whatever the number of encryption layers below them. -/
theorem towers_answer_alike [SerdeSlice EndorsementRecord] (keys : List (FixedBytes 32))
    (layer : TrustAdapter Unit) (layers : List (TrustAdapter Unit)) (requests : List Request) :
    List.Forall₂ Reply.Agree
      (replies TrustAdapter.call (layer.withInner (stack base layers)) requests)
      (replies TrustAdapter.call (layer.withInner (stack (encrypted base keys) layers)) requests) :=
  ((interchangeable_encrypted hcipher hserde hempty hlist keys).stack layers).replies layer requests

end

section

open Reference

/-- A majority of a layer that trusts one key, without a store. -/
theorem towers_answer_alike_sample :
    List.Forall₂ Reply.Agree
      (replies TrustAdapter.call
        (emptyNode.withInner (stack MemoryMap.new [sampleLayer .single])) sampleRequests)
      (replies TrustAdapter.call
        (emptyNode.withInner (stack (encrypted MemoryMap.new [sampleKey 7, sampleKey 8])
          [sampleLayer .single])) sampleRequests) :=
  towers_answer_alike cipherLaw serdeSliceLaw_encryptedBlob (fun _ => rfl)
    (listsByName_memoryAdapter _) [sampleKey 7, sampleKey 8] (emptyNode.withInner ())
    [sampleLayer .single] sampleRequests

end

/-! ## An encryption layer above a trust layer -/

section

variable [Crates] {A : Type}

/-- The adapter with other rules and other roles. -/
def TrustAdapter.withGovernance (t : TrustAdapter A) (rules : List Rule)
    (roles : Finmap fun _ : Bytes => String) : TrustAdapter A :=
  { t with
    keystore := { t.keystore with roles := roles }
    policy := { t.policy with rules := rules } }

/-- No object identifiers can be found in the stored deltas. -/
def HidesObjects [Adapter A] (store : A) : Prop :=
  ∀ name data, endsWith name ".delta" = true → Adapter.readObject store name 0 0 = .ok data →
    extractCreatedAndModifiedObjectIds data = []

/-- `serde_json` writes a blob as an object with the three fields of the
structure. -/
def BlobFieldsLaw [SerdeSlice EncryptedBlob] : Prop :=
  ∀ (blob : EncryptedBlob) (bytes : Bytes), SerdeSlice.toVec blob = .ok bytes →
    ∃ entries, Crates.valueFromSlice bytes = .ok (.object entries) ∧
      ∀ entry ∈ entries, entry.1 ∈ ["alg", "nonce", "data"]

/-- So no object identifiers can be found in it. -/
theorem objectIds_of_blob [SerdeSlice EncryptedBlob] (hfields : BlobFieldsLaw)
    {blob : EncryptedBlob} {bytes : Bytes} (h : SerdeSlice.toVec blob = .ok bytes) :
    extractCreatedAndModifiedObjectIds bytes = [] := by
  obtain ⟨entries, hvalue, hnames⟩ := hfields blob bytes h
  have hlookup : entries.lookup "c" = none := by
    rw [List.lookup_eq_none_iff]
    intro entry hentry
    have hname := hnames entry hentry
    rw [bne_iff_ne]
    intro hc
    rw [← hc] at hname
    revert hname
    decide
  unfold extractCreatedAndModifiedObjectIds
  rw [hvalue]
  simp only [hlookup]

namespace TrustAdapter

variable (t : TrustAdapter A) (rules : List Rule) (roles : Finmap fun _ : Bytes => String)

/-- A write in which there are no object identifiers is checked alike. -/
theorem checkWrite_withGovernance (key : String) {data : Bytes}
    (hdata : extractCreatedAndModifiedObjectIds data = []) :
    (t.withGovernance rules roles).checkWrite key data = t.checkWrite key data := by
  unfold checkWrite
  simp only [hdata]
  rfl

variable [Adapter A]

theorem writeObject_withGovernance (key : String) {data : Bytes}
    (hdata : extractCreatedAndModifiedObjectIds data = []) :
    (t.withGovernance rules roles).writeObject key data
      = ((t.writeObject key data).1, (t.writeObject key data).2.withGovernance rules roles) := by
  unfold writeObject
  rw [t.checkWrite_withGovernance rules roles key hdata]
  cases t.checkWrite key data <;> rfl

variable [SerdeSlice EndorsementRecord]

theorem fetchEndorsements_withGovernance (deltaId : DeltaId) :
    (t.withGovernance rules roles).fetchEndorsements deltaId = t.fetchEndorsements deltaId := by
  have hverdict : ∀ name, (t.withGovernance rules roles).endorsementVerdict deltaId name
      = t.endorsementVerdict deltaId name := by
    intro name
    unfold endorsementVerdict
    rfl
  have hinner : (t.withGovernance rules roles).inner = t.inner := rfl
  unfold fetchEndorsements
  simp only [hverdict, hinner]

/-- Endorsements are counted without the rules and the roles, and then every
endorser is allowed. -/
theorem gate_withGovernance (deltaId : DeltaId) {data : Bytes}
    (hdata : extractCreatedAndModifiedObjectIds data = []) :
    (t.withGovernance rules roles).gate deltaId data = t.gate deltaId data := by
  have hallowed : ∀ endorsements, (t.withGovernance rules roles).allowedEndorsers endorsements data
      = t.allowedEndorsers endorsements data := by
    intro endorsements
    unfold allowedEndorsers
    rw [hdata]
    rfl
  unfold gate
  simp only [hallowed, fetchEndorsements_withGovernance]
  rfl

/-- A read from a store that hides the objects is answered alike. -/
theorem readObject_withGovernance (h : HidesObjects t.inner) (key : String)
    (offset length : UInt64) :
    (t.withGovernance rules roles).readObject key offset length
      = t.readObject key offset length := by
  by_cases hpart : offset = 0 ∧ length = 0
  · rw [hpart.1, hpart.2]
    cases hkey : endsWith key ".delta" with
    | false =>
      rw [readObject_of_not_delta _ hkey, readObject_of_not_delta _ hkey]
      rfl
    | true =>
      have hinner : (t.withGovernance rules roles).inner = t.inner := rfl
      rw [readObject_whole _ hkey, readObject_whole _ hkey, hinner]
      cases hread : Adapter.readObject t.inner key 0 0 with
      | panic => simp only [Outcome.panic_bind]
      | err e => simp only [Outcome.err_bind]
      | ok data =>
        simp only [Outcome.ok_bind, t.gate_withGovernance rules roles _ (h key data hkey hread)]
  · rw [readObject_part _ key hpart, readObject_part _ key hpart]
    rfl

end TrustAdapter

variable [CipherCrates] [SerdeSlice EncryptedBlob] [SerdeSlice EndorsementRecord] [MapAdapter A]

/-- A call of an encryption layer above a trust layer, or a change of the
store by others, who may not leave object identifiers in its deltas. -/
inductive BlobCall (A : Type) [Adapter A] where
  | writeObject (key : String) (data : Bytes)
  | readObject (key : String) (offset length : UInt64)
  | listObjects (ext : String)
  | others (store : {store : A // HidesObjects store})

omit [CipherCrates] [SerdeSlice EncryptedBlob] [SerdeSlice EndorsementRecord] in
/-- Writing bytes without object identifiers keeps the objects hidden. -/
theorem HidesObjects.writeObject {t : TrustAdapter A} (h : HidesObjects t.inner)
    (key : String) {data : Bytes} (hdata : extractCreatedAndModifiedObjectIds data = []) :
    HidesObjects (t.writeObject key data).2.inner := by
  unfold TrustAdapter.writeObject
  cases t.checkWrite key data with
  | panic => exact h
  | err e => exact h
  | ok _ =>
    intro name data' hname hread
    rw [MapAdapter.readObject_eq_ok_iff, MapAdapter.objects_writeObject] at hread
    by_cases hkey : name = key
    · rw [hkey, Function.update_self] at hread
      rw [← Option.some.inj hread]
      exact hdata
    · rw [Function.update_of_ne hkey, ← MapAdapter.readObject_eq_ok_iff] at hread
      exact h name data' hname hread

namespace EncryptionAdapter

/-- What a call returns, and what becomes of the layers. -/
def handle (e : EncryptionAdapter (TrustAdapter A)) :
    BlobCall A → Reply × EncryptionAdapter (TrustAdapter A)
  | .writeObject key data => (.unit (e.writeObject key data).1, (e.writeObject key data).2)
  | .readObject key offset length => (.bytes (e.readObject key offset length), e)
  | .listObjects ext => (.names (e.listObjects ext), e)
  | .others store => (.unit (.ok ()), { e with inner := e.inner.withInner store.val })

/-- The layers with other rules and other roles. -/
def withGovernance (e : EncryptionAdapter (TrustAdapter A)) (rules : List Rule)
    (roles : Finmap fun _ : Bytes => String) : EncryptionAdapter (TrustAdapter A) :=
  { e with inner := e.inner.withGovernance rules roles }

variable (rules : List Rule) (roles : Finmap fun _ : Bytes => String)

/-- A blob is written alike, and hides the objects of the delta. -/
theorem writeObject_withGovernance (hfields : BlobFieldsLaw)
    {e : EncryptionAdapter (TrustAdapter A)} (h : HidesObjects e.inner.inner) (key : String)
    (data : Bytes) :
    (e.withGovernance rules roles).writeObject key data
        = ((e.writeObject key data).1, (e.writeObject key data).2.withGovernance rules roles) ∧
      HidesObjects (e.writeObject key data).2.inner.inner := by
  have hencrypt : (e.withGovernance rules roles).encrypt data = e.encrypt data := rfl
  unfold EncryptionAdapter.writeObject
  rw [hencrypt]
  cases henc : e.encrypt data with
  | panic => exact ⟨rfl, h⟩
  | err error => exact ⟨rfl, h⟩
  | ok enc =>
    obtain ⟨ciphertext, -, hvec⟩ := encrypt_eq_ok_iff.mp henc
    have hids := objectIds_of_blob hfields hvec
    have hwrite := e.inner.writeObject_withGovernance rules roles key hids
    have hinner : Adapter.writeObject (e.withGovernance rules roles).inner key enc
        = ((e.inner.writeObject key enc).1,
            (e.inner.writeObject key enc).2.withGovernance rules roles) := hwrite
    simp only [hinner]
    exact ⟨rfl, h.writeObject key hids⟩

/-- The blobs are read alike. -/
theorem readObject_withGovernance
    {e : EncryptionAdapter (TrustAdapter A)} (h : HidesObjects e.inner.inner) (key : String)
    (offset length : UInt64) :
    (e.withGovernance rules roles).readObject key offset length
      = e.readObject key offset length := by
  have hread : Adapter.readObject (e.withGovernance rules roles).inner key 0 0
      = Adapter.readObject e.inner key 0 0 :=
    e.inner.readObject_withGovernance rules roles h key 0 0
  unfold EncryptionAdapter.readObject
  rw [hread]
  rfl

theorem handle_withGovernance (hfields : BlobFieldsLaw) {e : EncryptionAdapter (TrustAdapter A)}
    (h : HidesObjects e.inner.inner) (call : BlobCall A) :
    (e.withGovernance rules roles).handle call
        = ((e.handle call).1, (e.handle call).2.withGovernance rules roles) ∧
      HidesObjects (e.handle call).2.inner.inner := by
  cases call with
  | writeObject key data =>
    obtain ⟨hwrite, hnext⟩ := writeObject_withGovernance rules roles hfields h key data
    refine ⟨?_, hnext⟩
    simp only [handle, hwrite]
  | readObject key offset length =>
    refine ⟨?_, h⟩
    simp only [handle, readObject_withGovernance rules roles h]
  | listObjects ext => exact ⟨rfl, h⟩
  | others store => exact ⟨rfl, store.property⟩

/-- In a store that hides the objects, the rules and the roles below an
encryption layer make no difference to any sequence of calls. -/
theorem governance_inert (hfields : BlobFieldsLaw) {e : EncryptionAdapter (TrustAdapter A)}
    (h : HidesObjects e.inner.inner) (calls : List (BlobCall A)) :
    replies handle (e.withGovernance rules roles) calls = replies handle e calls := by
  induction calls generalizing e with
  | nil => rfl
  | cons call calls ih =>
    obtain ⟨hcall, hnext⟩ := handle_withGovernance rules roles hfields h call
    unfold replies
    rw [hcall]
    simp only [ih hnext]

end EncryptionAdapter

end

section

open Reference

theorem blobFieldsLaw : BlobFieldsLaw := by
  intro blob bytes h
  rw [← Except.ok.inj h]
  refine ⟨_, valueFromSlice_writeBlob blob, fun entry hentry => ?_⟩
  simp only [List.mem_cons, List.not_mem_nil, or_false] at hentry
  rcases hentry with h | h | h <;> simp [h]

/-- An encryption layer above a node over an empty store. -/
def encryptedNode : EncryptionAdapter (TrustAdapter MemoryMap) := ⟨emptyNode, sampleKey 7⟩

theorem hidesObjects_encryptedNode : HidesObjects encryptedNode.inner.inner := by
  intro name data _ hread
  rw [MapAdapter.readObject_eq_ok_iff] at hread
  cases hread

/-- A policy that allows everything, and one that allows nothing. -/
theorem governance_inert_sample :
    replies EncryptionAdapter.handle (encryptedNode.withGovernance [] ∅)
        [.writeObject (sampleDelta 1).key sampleData, .readObject (sampleDelta 1).key 0 0]
      = replies EncryptionAdapter.handle encryptedNode
        [.writeObject (sampleDelta 1).key sampleData, .readObject (sampleDelta 1).key 0 0] :=
  EncryptionAdapter.governance_inert [] ∅ blobFieldsLaw hidesObjects_encryptedNode _

end

end MeldaSec
