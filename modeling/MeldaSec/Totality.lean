import MeldaSec.Reference

/-!
# When the gate panics

The gate reads names and records that anybody can have put into the store.
Over a store that does not panic itself, `total_iff` says exactly which names
make it panic: a stored delta with a name that `DeltaId::from` panics on, a
broken name in the listing, whatever delta it is about, and a listed name with
a complete record and a key of the wrong length.
-/

namespace MeldaSec

open Rust

section

variable [Crates] {A : Type} [Adapter A] [SerdeSlice EndorsementRecord]

/-- The scan panics when it derails, and not otherwise.  A whole read of a
delta panics when the delta is stored and its name cannot be parsed without a
panic, or the parsed delta is gated and its scan derails. -/
theorem TrustAdapter.total_iff (t : TrustAdapter A)
    (hlist : Adapter.listObjects t.inner ".sig" ≠ .panic)
    (hread : ∀ name, Adapter.readObject t.inner name 0 0 ≠ .panic) :
    (∀ deltaId, t.fetchEndorsements deltaId ≠ .panic ↔ ¬ Derails t.inner deltaId) ∧
      ∀ key, endsWith key ".delta" = true →
        (t.readObject key 0 0 ≠ .panic ↔
          ∀ data, Adapter.readObject t.inner key 0 0 = .ok data →
            DeltaId.fromStr key ≠ .panic ∧
              ∀ deltaId, DeltaId.fromStr key = .ok deltaId → t.Gated deltaId →
                ¬ Derails t.inner deltaId) := by
  refine ⟨fun deltaId => not_congr (fetchEndorsements_eq_panic_iff hlist hread),
    fun key hkey => ?_⟩
  rw [ne_eq, readObject_eq_panic_iff hkey hlist hread]
  constructor
  · intro h data hdata
    refine ⟨fun hpanic => h ⟨⟨data, hdata⟩, Or.inl hpanic⟩, ?_⟩
    intro deltaId hid hgated hderails
    exact h ⟨⟨data, hdata⟩, Or.inr ⟨deltaId, hid, hgated, hderails⟩⟩
  · intro h ⟨⟨data, hdata⟩, hbad⟩
    obtain ⟨hparsed, hscan⟩ := h data hdata
    rcases hbad with hpanic | ⟨deltaId, hid, hgated, hderails⟩
    · exact hparsed hpanic
    · exact hscan deltaId hid hgated hderails

end

section

open Reference

/-- Neither the scan of the sample delta nor its whole read panics. -/
theorem total_iff_sample :
    (sampleTrust .single).fetchEndorsements (sampleDelta 1) ≠ .panic ∧
      (sampleTrust .single).readObject (sampleDelta 1).key 0 0 ≠ .panic := by
  have hclean : ∀ deltaId, CleanScan sampleStore deltaId :=
    endorsedExactly_sampleStore.cleanScan deltaIdLaws digitLaw signatureLaw base64Law serdeSliceLaw
  obtain ⟨hfetch, hwhole⟩ := TrustAdapter.total_iff (sampleTrust .single)
    (MapAdapter.listObjects_ne_panic _ _) (MapAdapter.readObject_ne_panic _)
  refine ⟨(hfetch _).mpr (hclean _).not_derails, (hwhole _ (endsWith_key _)).mpr fun _ _ => ?_⟩
  exact ⟨by simp [fromKeyLaw (sampleDelta 1)], fun deltaId _ _ => (hclean deltaId).not_derails⟩

/-- The sample delta beside an empty file whose name has three digits in the
place of a public key. -/
def oddStore : MemoryMap :=
  storeOf [((sampleDelta 1).key, sampleData), ("1-aa.delta.abc.sig", [])]

theorem isBroken_odd : EndorsementKey.IsBroken "1-aa.delta.abc.sig" :=
  ⟨['1'], ['a', 'a'], ['a', 'b', 'c'], by decide, Or.inr rfl⟩

/-- A delta with an index that is too large by one. -/
def largeStore : MemoryMap := storeOf [("4294967296-aa.delta", sampleData)]

/-- The file makes the reading of the delta panic, and the scan of every other
delta as well.  The large index makes the reading of its delta panic in every
mode. -/
theorem oddStore_panics :
    (sampleAdapter .single ∅ oddStore).readObject (sampleDelta 1).key 0 0 = .panic ∧
      (∀ deltaId, (sampleAdapter .single ∅ oddStore).fetchEndorsements deltaId = .panic) ∧
      ∀ mode, (sampleAdapter mode ∅ largeStore).readObject "4294967296-aa.delta" 0 0 = .panic := by
  have hlist := MapAdapter.listObjects_ne_panic oddStore ".sig"
  have hread := MapAdapter.readObject_ne_panic oddStore
  have hnames : sigNames oddStore = ["1-aa.delta.abc.sig"] := by decide
  have hderails := derails_of_isBroken hnames isBroken_odd
  refine ⟨?_, fun deltaId => (fetchEndorsements_eq_panic_iff hlist hread).mpr (hderails _),
    fun mode => ?_⟩
  · exact (TrustAdapter.readObject_eq_panic_iff (endsWith_key _) hlist hread).mpr
      ⟨⟨sampleData, MapAdapter.readObject_some (by decide)⟩,
        Or.inr ⟨sampleDelta 1, fromKeyLaw _, ⟨rfl, rfl, by decide⟩, hderails _⟩⟩
  · have hpanic : DeltaId.fromStr "4294967296-aa.delta" = .panic := rfl
    have hobject : MapAdapter.objects largeStore "4294967296-aa.delta" = some sampleData := by
      decide
    exact (TrustAdapter.readObject_eq_panic_iff (by decide)
      (MapAdapter.listObjects_ne_panic _ _) (MapAdapter.readObject_ne_panic _)).mpr
      ⟨⟨sampleData, MapAdapter.readObject_some hobject⟩, Or.inl hpanic⟩

end

end MeldaSec
