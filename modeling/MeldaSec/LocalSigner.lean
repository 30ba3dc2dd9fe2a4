import MeldaSec.Reference

/-!
# What the local signing key changes

A node loads a configuration and then installs its own credentials.  The key
store keeps the signing key beside the trusted keys, and installing a public
key trusts it, so a node that signs may count a key that the configuration
does not name.  `readObject_node_congr` says when two nodes still read every
delta alike: a key from outside of the configuration is installed on both or
on neither.
-/

namespace MeldaSec

open Rust

section

variable [Crates]

/-- A private and a public key for `set_endorsement_credentials`. -/
structure Credentials where
  privateKey : Bytes
  publicKey : Bytes

/-- The two keys belong together, so that they are installed as `vk`. -/
def Credentials.Install (credentials : Credentials) (vk : VerifyingKey) : Prop :=
  ∃ sk : SigningKey, credentials.privateKey = sk.val ∧
    SigningKey.verifyingKey sk = vk ∧ credentials.publicKey = vk.toBytes

namespace KeyStore

/-- The key store of a node that was given credentials, or none.  What an
error leaves behind is kept. -/
def install (ks : KeyStore) : Option Credentials → KeyStore
  | none => ks
  | some credentials =>
    (ks.setEndorsementCredentials credentials.privateKey (some credentials.publicKey)).2

/-- Installing trusts the installed key, and no other. -/
theorem mem_trustedKeys_install {ks : KeyStore} {credentials : Option Credentials}
    {vk : VerifyingKey} :
    vk ∈ (ks.install credentials).trustedKeys ↔
      vk ∈ ks.trustedKeys ∨ ∃ c ∈ credentials, c.Install vk := by
  cases credentials with
  | none => simp [install]
  | some c =>
    obtain ⟨privateKey, publicKey⟩ := c
    simp only [install, Option.mem_some_iff, exists_eq_left', Credentials.Install]
    constructor
    · intro hvk
      rcases ks.setEndorsementCredentials_cases privateKey publicKey with
        ⟨e, herr⟩ | ⟨sk, hprivate, hpublic, hinstalled⟩
      · rw [herr] at hvk
        exact Or.inl hvk
      · rw [hinstalled, Finset.mem_insert] at hvk
        rcases hvk with rfl | hvk
        · exact Or.inr ⟨sk, hprivate, rfl, hpublic⟩
        · exact Or.inl hvk
    · rintro (hvk | ⟨sk, rfl, rfl, rfl⟩)
      · rcases ks.setEndorsementCredentials_cases privateKey publicKey with
          ⟨e, herr⟩ | ⟨sk, -, -, hinstalled⟩
        · rwa [herr]
        · rw [hinstalled]
          exact Finset.mem_insert_of_mem hvk
      · rw [setEndorsementCredentials_of_match]
        exact Finset.mem_insert_self _ _

theorem roles_install (ks : KeyStore) (credentials : Option Credentials) :
    (ks.install credentials).roles = ks.roles := by
  cases credentials with
  | none => rfl
  | some c =>
    rcases ks.setEndorsementCredentials_cases c.privateKey c.publicKey with
      ⟨e, herr⟩ | ⟨sk, -, -, hinstalled⟩
    · rw [install, herr]
    · rw [install, hinstalled]

end KeyStore

namespace TrustAdapter

variable {A : Type} [Adapter A] [SerdeSlice EndorsementRecord]

/-- The adapter of a node that was given credentials, or none. -/
def node (t : TrustAdapter A) (credentials : Option Credentials) : TrustAdapter A :=
  t.setKeystore (t.keystore.install credentials)

/-- Two nodes of one configuration read everything alike when a key that the
configuration does not trust is installed on both or on neither. -/
theorem readObject_node_congr (t : TrustAdapter A) (credentials credentials' : Option Credentials)
    (hsame : ∀ vk, vk ∉ t.keystore.trustedKeys →
      ((∃ c ∈ credentials, c.Install vk) ↔ ∃ c ∈ credentials', c.Install vk))
    (key : String) (offset length : UInt64) :
    (t.node credentials).readObject key offset length
      = (t.node credentials').readObject key offset length := by
  have htrusted : (t.keystore.install credentials).trustedKeys
      = (t.keystore.install credentials').trustedKeys := by
    ext vk
    rw [KeyStore.mem_trustedKeys_install, KeyStore.mem_trustedKeys_install]
    by_cases hvk : vk ∈ t.keystore.trustedKeys
    · simp only [hvk, true_or]
    · simp only [hvk, false_or, hsame vk hvk]
  have hroles : (t.keystore.install credentials).roles
      = (t.keystore.install credentials').roles := by
    rw [KeyStore.roles_install, KeyStore.roles_install]
  have hgate : (t.node credentials).SameGate (t.node credentials') :=
    ⟨rfl, htrusted, hroles, rfl, rfl, rfl⟩
  exact hgate.readObject_eq key offset length

end TrustAdapter

end

section

open Reference

/-- A configuration in the single mode without trusted keys, and with one
rule that allows everything. -/
def sampleConfiguration : Value :=
  .object [("endorsement_mode", .string "Single"),
    ("keystore", .object [("keys", .array [])]),
    ("delta_filter", .object [("whitelist", .array []), ("blacklist", .array [])]),
    ("policy", .object [("rules", .array [.object [("effect", .string "Allow"),
      ("key", .null), ("role", .null), ("objects", .string "*")]])])]

theorem fromJson_sampleConfiguration :
    TrustAdapter.fromJson sampleStore sampleConfiguration
      = .ok (sampleAdapter .single ∅ sampleStore) := rfl

/-- The credentials of the key that signed the sample deltas. -/
def sampleCredentials : Credentials :=
  ⟨(sampleKey 1).val, (SigningKey.verifyingKey (sampleKey 1)).toBytes⟩

/-- The node that endorsed a delta reads it, and a node without credentials
that loaded the same configuration does not. -/
theorem sampleConfiguration_diverges :
    ∃ t, TrustAdapter.fromJson sampleStore sampleConfiguration = .ok t ∧
      (t.node (some sampleCredentials)).readObject (sampleDelta 1).key 0 0 = .ok sampleData ∧
      ∀ data, (t.node none).readObject (sampleDelta 1).key 0 0 ≠ .ok data := by
  refine ⟨_, fromJson_sampleConfiguration, ?_, fun data hread => ?_⟩
  · have hks := (sampleAdapter .single ∅ sampleStore).keystore.setEndorsementCredentials_of_match
      (sampleKey 1)
    rw [TrustAdapter.node, KeyStore.install, sampleCredentials, hks]
    exact readObject_sampleTrust .single (Or.inl rfl)
  · obtain ⟨-, hadmits⟩ :=
      (TrustAdapter.readObject_of_fromStr (endsWith_key _) (fromKeyLaw _)).mp hread
    obtain ⟨-, -, hquorum⟩ := hadmits.2 ⟨rfl, rfl, by decide⟩
    have hcard := TrustAdapter.card_authorisedEndorsers_le
      ((sampleAdapter .single ∅ sampleStore).node none) (sampleDelta 1) data
    have hempty : ((sampleAdapter .single ∅ sampleStore).node none).keystore.trustedKeyCount
        = 0 := rfl
    rw [hempty] at hcard
    exact absurd (Nat.le_trans hquorum hcard) (by decide)

/-- Two nodes that install the key of the configuration read alike. -/
theorem readObject_node_congr_sample :
    ((sampleTrust .majority).node (some sampleCredentials)).readObject (sampleDelta 1).key 0 0
      = ((sampleTrust .majority).node none).readObject (sampleDelta 1).key 0 0 := by
  refine (sampleTrust .majority).readObject_node_congr _ _ (fun vk hvk => ?_) _ 0 0
  refine iff_of_false ?_ (by simp)
  rintro ⟨c, hc, sk, hprivate, rfl, -⟩
  obtain rfl := Option.mem_some_iff.mp hc
  obtain rfl : sampleKey 1 = sk := Subtype.ext hprivate
  exact hvk (Finset.mem_singleton_self _)

end

end MeldaSec
