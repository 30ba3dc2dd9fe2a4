import MeldaSec.Lib.Agreement
import MeldaSec.Reference.Cipher

/-!
# What the encryption layer does to the layers above

The blobs come from a store that others write to.  `readsSafely_iff` says for
which bytes a read of the encryption adapter keeps to `Ok` and `Err`: the
nonce of a blob is handed to the cipher without a look at its length.

The trust adapter over an encryption adapter answers every sequence of calls
like the trust adapter over the plain store.  The two runs are related by
`Mirrors`: the same writes have gone into both stores, in one of them as
blobs.  Stores related in that way look alike from above (`StoresAlike`), and
everything that the trust adapter computes from a store depends on how the
store looks.
-/

namespace MeldaSec

open Rust

/-! ## Reading blobs that others wrote -/

section

variable [Crates] [CipherCrates] [SerdeSlice EncryptedBlob] {A : Type}

namespace EncryptionAdapter

/-- The bytes are a blob of the expected algorithm, with a nonce of the right
length, and its ciphertext is authentic. -/
def Opens (e : EncryptionAdapter A) (enc plaintext : Bytes) : Prop :=
  ∃ (blob : EncryptedBlob) (nonce : FixedBytes 12), SerdeSlice.fromSlice enc = .ok blob ∧
    blob.alg = "aes-256-gcm" ∧ blob.nonce = nonce.val ∧
    CipherCrates.aes256GcmDecrypt e.key nonce blob.data = some plaintext

omit [Crates] in
theorem decrypt_eq_ok_iff {e : EncryptionAdapter A} {enc plaintext : Bytes} :
    e.decrypt enc = .ok plaintext ↔ e.Opens enc plaintext := by
  rw [decrypt, Opens]
  cases hblob : SerdeSlice.fromSlice (T := EncryptedBlob) enc with
  | error error => simp
  | ok blob =>
    simp only [Except.ok.injEq, exists_and_left, exists_eq_left', genericArrayFromSlice]
    by_cases halg : blob.alg = "aes-256-gcm"
    · cases hnonce : tryInto 12 blob.nonce with
      | none =>
        have hne : ∀ nonce : FixedBytes 12, blob.nonce ≠ nonce.val := fun nonce heq => by
          simp [tryInto_eq_some_iff.mpr heq] at hnonce
        simp [halg, hne]
      | some nonce =>
        have heq : ∀ nonce' : FixedBytes 12, blob.nonce = nonce'.val ↔ nonce = nonce' := by
          intro nonce'
          rw [← tryInto_eq_some_iff, hnonce, Option.some.injEq]
        simp [halg, heq, Outcome.okOr_eq_ok_iff]
    · simp [halg]

omit [Crates] in
/-- The assertion on the length of the nonce is the one way to panic. -/
theorem decrypt_eq_panic_iff {e : EncryptionAdapter A} {enc : Bytes} :
    e.decrypt enc = .panic ↔ ∃ blob : EncryptedBlob, SerdeSlice.fromSlice enc = .ok blob ∧
      blob.alg = "aes-256-gcm" ∧ blob.nonce.length ≠ 12 := by
  unfold decrypt
  cases hblob : SerdeSlice.fromSlice (T := EncryptedBlob) enc with
  | error error => simp
  | ok blob =>
    simp only [Except.ok.injEq, exists_eq_left', genericArrayFromSlice, ← tryInto_eq_none_iff]
    by_cases halg : blob.alg = "aes-256-gcm"
    · cases tryInto 12 blob.nonce with
      | none => simp [halg]
      | some nonce => simp [halg, Outcome.okOr_ne_panic]
    · simp [halg]

omit [Crates] in
theorem encrypt_eq_ok_iff {e : EncryptionAdapter A} {plaintext enc : Bytes} :
    e.encrypt plaintext = .ok enc ↔ ∃ ciphertext,
      CipherCrates.aes256GcmEncrypt e.key (deriveNonce plaintext) plaintext = some ciphertext ∧
        SerdeSlice.toVec
          (EncryptedBlob.mk "aes-256-gcm" (deriveNonce plaintext).val ciphertext) = .ok enc := by
  unfold encrypt
  simp only [Outcome.bind_eq_ok_iff, Outcome.okOr_eq_ok_iff, Outcome.ofExcept_eq_ok_iff]

variable [Adapter A]

/-- A read of the stored bytes returns `Ok` or `Err`, and `Err` for bytes that
are not an authentic blob. -/
structure ReadsSafely (e : EncryptionAdapter A) (name : String) (enc : Bytes) : Prop where
  returns : e.readObject name 0 0 ≠ .panic
  rejects : (∀ plaintext, ¬ e.Opens enc plaintext) → ∃ error, e.readObject name 0 0 = .err error

/-- A whole read decrypts the stored bytes. -/
theorem readObject_whole {e : EncryptionAdapter A} {name : String} {enc : Bytes}
    (henc : Adapter.readObject e.inner name 0 0 = .ok enc) :
    e.readObject name 0 0 = e.decrypt enc := by
  rw [readObject, henc, Outcome.ok_bind]
  cases e.decrypt enc <;> rfl

/-- Stored bytes are read safely exactly when, if they are a blob of the
expected algorithm, its nonce has twelve bytes. -/
theorem readsSafely_iff (e : EncryptionAdapter A) {name : String} {enc : Bytes}
    (henc : Adapter.readObject e.inner name 0 0 = .ok enc) :
    e.ReadsSafely name enc ↔
      ∀ blob : EncryptedBlob, SerdeSlice.fromSlice enc = .ok blob →
        blob.alg = "aes-256-gcm" → blob.nonce.length = 12 := by
  have hpanic : e.readObject name 0 0 ≠ .panic ↔
      ∀ blob : EncryptedBlob, SerdeSlice.fromSlice enc = .ok blob →
        blob.alg = "aes-256-gcm" → blob.nonce.length = 12 := by
    rw [readObject_whole henc, ne_eq, decrypt_eq_panic_iff]
    simp only [not_exists, not_and, not_not]
  rw [← hpanic]
  refine ⟨fun h => h.returns, fun hreturns => ⟨hreturns, fun hclosed => ?_⟩⟩
  rw [readObject_whole henc] at hreturns ⊢
  refine Outcome.exists_eq_err_iff.mpr ⟨hreturns, fun plaintext hok => ?_⟩
  exact hclosed plaintext (decrypt_eq_ok_iff.mp hok)

end EncryptionAdapter

end

section

open Reference

/-- A store with one blob. -/
def blobStore (blob : EncryptedBlob) : EncryptionAdapter MemoryMap :=
  ⟨storeOf [("a", asBytes (String.ofList (writeBlob blob)))], sampleKey 7⟩

theorem readObject_blobStore (blob : EncryptedBlob) :
    Adapter.readObject (blobStore blob).inner "a" 0 0
      = .ok (asBytes (String.ofList (writeBlob blob))) :=
  MapAdapter.readObject_some (by rw [blobStore, objects_storeOf, List.lookup_cons_self])

theorem fromSlice_writeBlob (blob : EncryptedBlob) :
    SerdeSlice.fromSlice (asBytes (String.ofList (writeBlob blob))) = .ok blob := by
  obtain ⟨bytes, hbytes, hparse⟩ := serdeSliceLaw_encryptedBlob blob
  rw [← Except.ok.inj hbytes] at hparse
  exact hparse

/-- A blob with a nonce of twelve bytes and no ciphertext is read safely. -/
theorem readsSafely_iff_sample :
    (blobStore ⟨"aes-256-gcm", List.replicate 12 0, []⟩).ReadsSafely "a"
      (asBytes (String.ofList (writeBlob ⟨"aes-256-gcm", List.replicate 12 0, []⟩))) := by
  refine (EncryptionAdapter.readsSafely_iff _ (readObject_blobStore _)).mpr fun blob hblob _ => ?_
  obtain rfl := Except.ok.inj ((fromSlice_writeBlob _).symm.trans hblob)
  rfl

/-- A blob without a nonce makes the read panic. -/
theorem emptyNonce_not_readsSafely :
    (blobStore ⟨"aes-256-gcm", [], []⟩).readObject "a" 0 0 = .panic ∧
      ¬ (blobStore ⟨"aes-256-gcm", [], []⟩).ReadsSafely "a"
        (asBytes (String.ofList (writeBlob ⟨"aes-256-gcm", [], []⟩))) := by
  have hpanic : (blobStore ⟨"aes-256-gcm", [], []⟩).readObject "a" 0 0 = .panic := by
    rw [EncryptionAdapter.readObject_whole (readObject_blobStore _)]
    exact EncryptionAdapter.decrypt_eq_panic_iff.mpr ⟨_, fromSlice_writeBlob _, rfl, by simp⟩
  exact ⟨hpanic, fun h => h.returns hpanic⟩

end

/-! ## Stores that look alike -/

section

variable {A B : Type} [Adapter A] [Adapter B]

/-- Whole reads and listings of the two stores agree. -/
structure LookAlike (a : A) (b : B) : Prop where
  read : ∀ name, Outcome.Agree (Adapter.readObject a name 0 0) (Adapter.readObject b name 0 0)
  list : ∀ suffix, Adapter.listObjects a suffix = Adapter.listObjects b suffix

variable [Crates] [SerdeSlice EndorsementRecord]

namespace TrustAdapter

variable {t : TrustAdapter A} {b : B} (h : LookAlike t.inner b)
include h

theorem readEndorsementRecord_agree (key : EndorsementKey) :
    Outcome.Agree (t.readEndorsementRecord key) ((t.withInner b).readEndorsementRecord key) :=
  (h.read key.fileName).bind fun _ => Outcome.Agree.refl _

theorem endorsementVerdict_agree (deltaId : DeltaId) (sigFile : String) :
    Outcome.Agree (t.endorsementVerdict deltaId sigFile)
      ((t.withInner b).endorsementVerdict deltaId sigFile) := by
  rw [endorsementVerdict, endorsementVerdict]
  cases EndorsementKey.fromStr sigFile with
  | panic => exact .panic
  | err e => exact .ok none
  | ok key =>
    by_cases hd : key.deltaId = deltaId
    · simp only [if_pos hd]
      exact (readEndorsementRecord_agree h key).bind fun _ => Outcome.Agree.refl _
    · simp only [if_neg hd]
      exact .ok none

theorem fetchEndorsements_agree (deltaId : DeltaId) :
    Outcome.Agree (t.fetchEndorsements deltaId) ((t.withInner b).fetchEndorsements deltaId) := by
  have hlist : Adapter.listObjects (t.withInner b).inner ".sig"
      = Adapter.listObjects t.inner ".sig" := (h.list ".sig").symm
  rw [fetchEndorsements, fetchEndorsements, hlist]
  cases Adapter.listObjects t.inner ".sig" with
  | panic => exact .panic
  | err e => exact .ok _
  | ok sigFiles =>
    exact Outcome.Agree.foldlM
      (fun result sigFile => (endorsementVerdict_agree h deltaId sigFile).map _) _ _

/-- Everything behind the read of the object is the same computation. -/
theorem readObject_agree (key : String) (offset length : UInt64) :
    Outcome.Agree (t.readObject key offset length)
      ((t.withInner b).readObject key offset length) := by
  refine (h.read key).bind fun data => Outcome.Agree.ite (Outcome.Agree.refl _) ?_
  cases DeltaId.fromStr key with
  | panic => exact Outcome.Agree.refl _
  | err e => exact Outcome.Agree.refl _
  | ok deltaId =>
    refine Outcome.Agree.ite (Outcome.Agree.refl _) (Outcome.Agree.ite (Outcome.Agree.refl _) ?_)
    exact (fetchEndorsements_agree h deltaId).bind fun _ => Outcome.Agree.refl _

theorem checkDelta_agree (deltaId : DeltaId) :
    Outcome.Agree (t.checkDelta deltaId) ((t.withInner b).checkDelta deltaId) := by
  have hread := readObject_agree h deltaId.key 0 0
  rw [checkDelta, checkDelta]
  generalize t.readObject deltaId.key 0 0 = x at hread ⊢
  generalize (t.withInner b).readObject deltaId.key 0 0 = y at hread ⊢
  cases hread with
  | ok data => exact .ok true
  | err e e' => exact .ok false
  | panic => exact .panic

theorem alreadyEndorsed_agree (sk : SigningKey) (deltaId : DeltaId) :
    Outcome.Agree (t.alreadyEndorsed sk deltaId) ((t.withInner b).alreadyEndorsed sk deltaId) := by
  have hrecord := readEndorsementRecord_agree h (ownEndorsementKey sk deltaId)
  rw [alreadyEndorsed, alreadyEndorsed]
  generalize t.readEndorsementRecord (ownEndorsementKey sk deltaId) = x at hrecord ⊢
  generalize (t.withInner b).readEndorsementRecord (ownEndorsementKey sk deltaId) = y
    at hrecord ⊢
  cases hrecord with
  | ok endorsement => exact Outcome.Agree.refl _
  | err e e' => exact .ok false
  | panic => exact .panic

end TrustAdapter

end

/-! ## The same writes into both stores -/

section

variable {A : Type} [MapAdapter A]

/-- The store after these writes. -/
def written (store : A) (writes : List (String × Bytes)) : A :=
  writes.foldl (fun store w => (Adapter.writeObject store w.1 w.2).2) store

/-- What is listed, and in which order, depends on the names that were written
and not on the bytes. -/
def ListsByName (store : A) : Prop :=
  ∀ writes writes' : List (String × Bytes), writes.map Prod.fst = writes'.map Prod.fst →
    ∀ suffix, Adapter.listObjects (written store writes) suffix
      = Adapter.listObjects (written store writes') suffix

/-- The in-memory map lists the names with the last one written first. -/
theorem listsByName_memoryAdapter (store : MemoryMap) : ListsByName store := by
  have hkeys : ∀ (writes writes' : List (String × Bytes)) (s s' : MemoryMap),
      s.entries.keys = s'.entries.keys → writes.map Prod.fst = writes'.map Prod.fst →
      (written s writes).entries.keys = (written s' writes').entries.keys := by
    intro writes
    induction writes with
    | nil =>
      intro writes' s s' hs hnames
      obtain rfl := List.map_eq_nil_iff.mp hnames.symm
      exact hs
    | cons w writes ih =>
      intro writes' s s' hs hnames
      obtain ⟨w', writes', rfl, hw, hnames⟩ := List.map_eq_cons_iff.mp hnames.symm
      refine ih writes' _ _ ?_ hnames.symm
      show (s.entries.insert w.1 w.2).keys = (s'.entries.insert w'.1 w'.2).keys
      rw [AList.keys_insert, AList.keys_insert, hs, hw]
  intro writes writes' hnames suffix
  have hlisted : ∀ s : MemoryMap, Adapter.listObjects s suffix
      = .ok (s.entries.keys.filter (endsWith · suffix)) := fun _ => rfl
  rw [hlisted, hlisted, hkeys writes writes' store store rfl hnames]

/-- Writing images of the bytes stores the images. -/
theorem objects_written_map (f : Bytes → Bytes) {store store' : A}
    (h : ∀ name, MapAdapter.objects store' name = (MapAdapter.objects store name).map f)
    (writes : List (String × Bytes)) (name : String) :
    MapAdapter.objects (written store' (writes.map fun w => (w.1, f w.2))) name
      = (MapAdapter.objects (written store writes) name).map f := by
  induction writes generalizing store store' with
  | nil => exact h name
  | cons w writes ih =>
    refine ih fun other => ?_
    rw [MapAdapter.objects_writeObject, MapAdapter.objects_writeObject]
    by_cases hother : other = w.1
    · rw [hother, Function.update_self, Function.update_self]
      rfl
    · rw [Function.update_of_ne hother, Function.update_of_ne hother, h]

variable [Crates] [CipherCrates] [SerdeSlice EncryptedBlob]

/-- The blob that an object is stored as. -/
def EncryptionAdapter.sealed (e : EncryptionAdapter A) (plaintext : Bytes) : Bytes :=
  match e.encrypt plaintext with
  | .ok enc => enc
  | _ => []

/-- The same writes have gone into the plain store and, as blobs, into the
store behind the encryption. -/
def Mirrors (empty plain : A) (e : EncryptionAdapter A) : Prop :=
  ∃ writes, plain = written empty writes ∧
    e.inner = written empty (writes.map fun w => (w.1, e.sealed w.2))

section

variable (hcipher : CipherLaw) (hserde : SerdeSliceLaw EncryptedBlob)
include hcipher hserde

omit [MapAdapter A] [Crates] in
/-- Encryption succeeds, and decryption inverts it. -/
theorem EncryptionAdapter.encrypt_eq (e : EncryptionAdapter A) (plaintext : Bytes) :
    e.encrypt plaintext = .ok (e.sealed plaintext) ∧
      e.decrypt (e.sealed plaintext) = .ok plaintext := by
  obtain ⟨ciphertext, hencrypt, hdecrypt⟩ := hcipher e.key (deriveNonce plaintext) plaintext
  obtain ⟨enc, henc, hparse⟩ :=
    hserde ⟨"aes-256-gcm", (deriveNonce plaintext).val, ciphertext⟩
  have hok : e.encrypt plaintext = .ok enc := by
    simp only [encrypt, hencrypt, henc, Outcome.okOr_some, Outcome.ok_bind, Outcome.ofExcept_ok]
  have hsealed : e.sealed plaintext = enc := by rw [sealed, hok]
  rw [hsealed]
  exact ⟨hok, decrypt_eq_ok_iff.mpr ⟨_, deriveNonce plaintext, hparse, rfl, rfl, hdecrypt⟩⟩

/-- A write goes into both stores. -/
theorem Mirrors.write {empty plain : A} {e : EncryptionAdapter A} (h : Mirrors empty plain e)
    (name : String) (bytes : Bytes) :
    (Adapter.writeObject e name bytes).1 = .ok () ∧
      Mirrors empty (Adapter.writeObject plain name bytes).2
        (Adapter.writeObject e name bytes).2 := by
  have hwrite : Adapter.writeObject e name bytes
      = ((Adapter.writeObject e.inner name (e.sealed bytes)).1,
          { e with inner := (Adapter.writeObject e.inner name (e.sealed bytes)).2 }) := by
    have hunfold : Adapter.writeObject e name bytes = e.writeObject name bytes := rfl
    rw [hunfold, EncryptionAdapter.writeObject, (e.encrypt_eq hcipher hserde bytes).1]
  rw [hwrite]
  refine ⟨MapAdapter.writeObject_fst _ _ _, ?_⟩
  obtain ⟨writes, rfl, hinner⟩ := h
  refine ⟨writes ++ [(name, bytes)], ?_, ?_⟩
  · rw [written, written, List.foldl_append]
    rfl
  · rw [List.map_append, written, List.foldl_append, ← written, hinner]
    rfl

/-- The two stores look alike from above. -/
theorem Mirrors.lookAlike {empty plain : A} (hempty : ∀ name, MapAdapter.objects empty name = none)
    (hlist : ListsByName empty) {e : EncryptionAdapter A} (h : Mirrors empty plain e) :
    LookAlike plain e := by
  obtain ⟨writes, rfl, hinner⟩ := h
  constructor
  · intro name
    have hobj : MapAdapter.objects e.inner name
        = (MapAdapter.objects (written empty writes) name).map e.sealed := by
      rw [hinner]
      exact objects_written_map _ (fun other => by rw [hempty]; rfl) writes name
    cases hplain : MapAdapter.objects (written empty writes) name with
    | none =>
      rw [hplain] at hobj
      obtain ⟨error, herror⟩ := MapAdapter.readObject_none hplain
      obtain ⟨error', herror'⟩ := MapAdapter.readObject_none hobj
      have hread : Adapter.readObject e name 0 0 = .err error' := by
        have hunfold : Adapter.readObject e name 0 0 = e.readObject name 0 0 := rfl
        rw [hunfold, EncryptionAdapter.readObject, herror', Outcome.err_bind]
      rw [herror, hread]
      exact .err _ _
    | some bytes =>
      rw [hplain] at hobj
      have hread : Adapter.readObject e name 0 0 = .ok bytes :=
        (EncryptionAdapter.readObject_whole (MapAdapter.readObject_some hobj)).trans
          (e.encrypt_eq hcipher hserde bytes).2
      rw [MapAdapter.readObject_some hplain, hread]
      exact .ok bytes
  · intro suffix
    have hunfold : Adapter.listObjects e suffix = Adapter.listObjects e.inner suffix := rfl
    rw [hunfold, hinner]
    exact hlist _ _ (by simp [Function.comp_def]) suffix

end

end

/-! ## Runs of the trust adapter -/

/-- The calls of the trust adapter. -/
inductive Request [Crates] where
  | writeObject (key : String) (data : Bytes)
  | readObject (key : String) (offset length : UInt64)
  | listObjects (ext : String)
  | endorse (deltaId : DeltaId)
  | fetchEndorsements (deltaId : DeltaId)
  | checkDelta (deltaId : DeltaId)

/-- What they return. -/
inductive Reply where
  | unit (result : Result Unit)
  | bytes (result : Result Bytes)
  | names (result : Result (List String))
  | endorsements (result : Result EndorsementFetchResult)
  | verdict (result : Result Bool)

/-- The same values, errors at the same calls, and panics at the same calls. -/
inductive Reply.Agree : Reply → Reply → Prop where
  | unit {x y : Result Unit} : Outcome.Agree x y → Agree (.unit x) (.unit y)
  | bytes {x y : Result Bytes} : Outcome.Agree x y → Agree (.bytes x) (.bytes y)
  | names {x y : Result (List String)} : Outcome.Agree x y → Agree (.names x) (.names y)
  | endorsements {x y : Result EndorsementFetchResult} :
    Outcome.Agree x y → Agree (.endorsements x) (.endorsements y)
  | verdict {x y : Result Bool} : Outcome.Agree x y → Agree (.verdict x) (.verdict y)

section

variable [Crates] [SerdeSlice EndorsementRecord]

/-- One call. -/
def TrustAdapter.call {A : Type} [Adapter A] (t : TrustAdapter A) :
    Request → Reply × TrustAdapter A
  | .writeObject key data => ((.unit (t.writeObject key data).1), (t.writeObject key data).2)
  | .readObject key offset length => (.bytes (t.readObject key offset length), t)
  | .listObjects ext => (.names (t.listObjects ext), t)
  | .endorse deltaId => (.unit (t.endorse deltaId).1, t.withInner (t.endorse deltaId).2)
  | .fetchEndorsements deltaId => (.endorsements (t.fetchEndorsements deltaId), t)
  | .checkDelta deltaId => (.verdict (t.checkDelta deltaId), t)

variable [CipherCrates] [SerdeSlice EncryptedBlob] {A : Type} [MapAdapter A]

/-- The same configuration over the plain store and over the encryption. -/
def SameConfiguration (empty : A) (t : TrustAdapter A) (t' : TrustAdapter (EncryptionAdapter A)) :
    Prop :=
  ∃ e, t' = t.withInner e ∧ Mirrors empty t.inner e

section

variable (hcipher : CipherLaw) (hserde : SerdeSliceLaw EncryptedBlob)
include hcipher hserde

omit [SerdeSlice EndorsementRecord] in
/-- A strict write is checked alike, and a write goes into both stores. -/
theorem SameConfiguration.writeObject {empty : A} {t : TrustAdapter A}
    {t' : TrustAdapter (EncryptionAdapter A)} (h : SameConfiguration empty t t') (key : String)
    (data : Bytes) :
    Outcome.Agree (t.writeObject key data).1 (t'.writeObject key data).1 ∧
      SameConfiguration empty (t.writeObject key data).2 (t'.writeObject key data).2 := by
  obtain ⟨e, rfl, hmirrors⟩ := h
  have hcheck : (t.withInner e).checkWrite key data = t.checkWrite key data := rfl
  rw [TrustAdapter.writeObject, TrustAdapter.writeObject, hcheck]
  cases t.checkWrite key data with
  | ok passed =>
    obtain ⟨hok, hnext⟩ := hmirrors.write hcipher hserde key data
    exact ⟨.of_eq ((MapAdapter.writeObject_fst _ _ _).trans hok.symm), _, rfl, hnext⟩
  | err error => exact ⟨.err _ _, e, rfl, hmirrors⟩
  | panic => exact ⟨.panic, e, rfl, hmirrors⟩

theorem SameConfiguration.writeEndorsement {empty : A} {t : TrustAdapter A}
    {e : EncryptionAdapter A} (h : Mirrors empty t.inner e) (sk : SigningKey) (deltaId : DeltaId) :
    Outcome.Agree (t.writeEndorsement sk deltaId).1
        ((t.withInner e).writeEndorsement sk deltaId).1 ∧
      Mirrors empty (t.writeEndorsement sk deltaId).2
        ((t.withInner e).writeEndorsement sk deltaId).2 := by
  rw [TrustAdapter.writeEndorsement, TrustAdapter.writeEndorsement]
  cases SerdeSlice.toVec (TrustAdapter.signedRecord sk deltaId) with
  | error error => exact ⟨.err _ _, h⟩
  | ok bytes =>
    obtain ⟨hok, hnext⟩ :=
      h.write hcipher hserde (TrustAdapter.ownEndorsementKey sk deltaId).fileName bytes
    exact ⟨.of_eq ((MapAdapter.writeObject_fst _ _ _).trans hok.symm), hnext⟩

section

variable {empty : A} (hempty : ∀ name, MapAdapter.objects empty name = none)
  (hlist : ListsByName empty)
include hempty hlist

/-- The stored record is judged alike, and a new one goes into both stores. -/
theorem SameConfiguration.endorse {t : TrustAdapter A}
    {t' : TrustAdapter (EncryptionAdapter A)} (h : SameConfiguration empty t t')
    (deltaId : DeltaId) :
    Outcome.Agree (t.endorse deltaId).1 (t'.endorse deltaId).1 ∧
      SameConfiguration empty (t.withInner (t.endorse deltaId).2)
        (t'.withInner (t'.endorse deltaId).2) := by
  obtain ⟨e, rfl, hmirrors⟩ := h
  have hlook := hmirrors.lookAlike hcipher hserde hempty hlist
  have hkey : (t.withInner e).keystore.endorsementKey = t.keystore.endorsementKey := rfl
  suffices hboth : Outcome.Agree (t.endorse deltaId).1 ((t.withInner e).endorse deltaId).1 ∧
      Mirrors empty (t.endorse deltaId).2 ((t.withInner e).endorse deltaId).2 from
    ⟨hboth.1, _, rfl, hboth.2⟩
  rw [TrustAdapter.endorse, TrustAdapter.endorse, hkey]
  cases t.keystore.endorsementKey with
  | none => exact ⟨.err _ _, hmirrors⟩
  | some sk =>
    have hpresent := TrustAdapter.alreadyEndorsed_agree hlook sk deltaId
    simp only
    generalize t.alreadyEndorsed sk deltaId = x at hpresent ⊢
    generalize (t.withInner e).alreadyEndorsed sk deltaId = y at hpresent ⊢
    cases hpresent with
    | ok present =>
      cases present with
      | true => exact ⟨.ok (), hmirrors⟩
      | false => exact SameConfiguration.writeEndorsement hcipher hserde hmirrors sk deltaId
    | err error error' => exact ⟨.err _ _, hmirrors⟩
    | panic => exact ⟨.panic, hmirrors⟩

/-- A call gets the same reply, and the stores stay related. -/
theorem SameConfiguration.call {t : TrustAdapter A} {t' : TrustAdapter (EncryptionAdapter A)}
    (request : Request) (h : SameConfiguration empty t t') :
    Reply.Agree (t.call request).1 (t'.call request).1 ∧
      SameConfiguration empty (t.call request).2 (t'.call request).2 := by
  cases request with
  | writeObject key data =>
    obtain ⟨hreply, hnext⟩ := h.writeObject hcipher hserde key data
    exact ⟨.unit hreply, hnext⟩
  | endorse deltaId =>
    obtain ⟨hreply, hnext⟩ := h.endorse hcipher hserde hempty hlist deltaId
    exact ⟨.unit hreply, hnext⟩
  | readObject key offset length =>
    obtain ⟨e, rfl, hmirrors⟩ := h
    have hlook := hmirrors.lookAlike hcipher hserde hempty hlist
    exact ⟨.bytes (TrustAdapter.readObject_agree hlook key offset length), e, rfl, hmirrors⟩
  | listObjects ext =>
    obtain ⟨e, rfl, hmirrors⟩ := h
    have hlook := hmirrors.lookAlike hcipher hserde hempty hlist
    exact ⟨.names (.of_eq (hlook.list ext)), e, rfl, hmirrors⟩
  | fetchEndorsements deltaId =>
    obtain ⟨e, rfl, hmirrors⟩ := h
    have hlook := hmirrors.lookAlike hcipher hserde hempty hlist
    exact ⟨.endorsements (TrustAdapter.fetchEndorsements_agree hlook deltaId), e, rfl, hmirrors⟩
  | checkDelta deltaId =>
    obtain ⟨e, rfl, hmirrors⟩ := h
    have hlook := hmirrors.lookAlike hcipher hserde hempty hlist
    exact ⟨.verdict (TrustAdapter.checkDelta_agree hlook deltaId), e, rfl, hmirrors⟩

end

/-- From an empty store on, the trust adapter gives the same replies to every
sequence of calls with an encryption layer below it and without. -/
theorem TrustAdapter.encryption_transparent (t : TrustAdapter A)
    (hempty : ∀ name, MapAdapter.objects t.inner name = none) (hlist : ListsByName t.inner)
    (key : FixedBytes 32) (requests : List Request) :
    List.Forall₂ Reply.Agree (replies TrustAdapter.call t requests)
      (replies TrustAdapter.call (t.withInner (EncryptionAdapter.mk t.inner key)) requests) := by
  refine replies_forall₂ (R := SameConfiguration t.inner) ?_ ⟨_, rfl, [], rfl, rfl⟩
  intro plain encrypted request _ h
  exact h.call hcipher hserde hempty hlist request

end

end

section

open Reference

/-- A writer that trusts itself, over an empty store. -/
def emptyNode : TrustAdapter MemoryMap :=
  ⟨MemoryMap.new, ⟨some (sampleKey 1), {(sampleKey 1).verifyingKey}, ∅⟩, DeltaFilter.new,
    allowAll, .majority⟩

/-- A delta is written, endorsed twice and read back. -/
def sampleRequests : List Request :=
  [.writeObject (sampleDelta 1).key sampleData, .endorse (sampleDelta 1),
    .endorse (sampleDelta 1), .readObject (sampleDelta 1).key 0 0,
    .readObject (sampleDelta 1).key 1 2, .listObjects ".sig", .checkDelta (sampleDelta 2)]

theorem encryption_transparent_sample :
    List.Forall₂ Reply.Agree (replies TrustAdapter.call emptyNode sampleRequests)
      (replies TrustAdapter.call
        (emptyNode.withInner (EncryptionAdapter.mk MemoryMap.new (sampleKey 7)))
        sampleRequests) :=
  TrustAdapter.encryption_transparent cipherLaw serdeSliceLaw_encryptedBlob emptyNode
    (fun _ => rfl) (listsByName_memoryAdapter _) (sampleKey 7) sampleRequests

end

end MeldaSec
