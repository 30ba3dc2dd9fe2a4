import MeldaSec.Crates
import Mathlib.Data.Finset.Basic

/-!
# The delta filter

Two sets of delta names: a whitelisted delta is read without endorsements,
and a blacklisted delta is not read at all.
-/

namespace MeldaSec

open Rust

variable [Crates]

/-- The whitelist and the blacklist, as `DeltaId::key` strings. -/
structure DeltaFilter where
  whitelist : Finset String
  blacklist : Finset String

/-- The serialized filter. -/
structure DeltaFilterConfig where
  whitelist : List String
  blacklist : List String
  deriving DecidableEq

namespace DeltaFilter

/-- A filter without entries. -/
def new : DeltaFilter := ⟨∅, ∅⟩

/-- `add_to_whitelist`; the result says whether the entry is new. -/
def addToWhitelist (df : DeltaFilter) (deltaId : DeltaId) : Result Bool × DeltaFilter :=
  (.ok (decide (deltaId.key ∉ df.whitelist)),
    { df with whitelist := insert deltaId.key df.whitelist })

/-- `is_whitelisted`. -/
def isWhitelisted (df : DeltaFilter) (deltaId : DeltaId) : Bool :=
  decide (deltaId.key ∈ df.whitelist)

/-- `add_to_blacklist`; the result says whether the entry is new. -/
def addToBlacklist (df : DeltaFilter) (deltaId : DeltaId) : Result Bool × DeltaFilter :=
  (.ok (decide (deltaId.key ∉ df.blacklist)),
    { df with blacklist := insert deltaId.key df.blacklist })

/-- `is_blacklisted`. -/
def isBlacklisted (df : DeltaFilter) (deltaId : DeltaId) : Bool :=
  decide (deltaId.key ∈ df.blacklist)

/-- `DeltaFilter::from_json`.  Every entry is parsed again. -/
def fromJson [SerdeValue DeltaFilterConfig] (json : Value) : Result DeltaFilter := do
  let config : DeltaFilterConfig ← Outcome.ofExcept (SerdeValue.fromValue json)
  let df ← config.whitelist.foldlM (fun (df : DeltaFilter) entry => do
    let deltaId ← DeltaId.fromStr entry
    let (result, df) := df.addToWhitelist deltaId
    (fun _ => df) <$> result) new
  config.blacklist.foldlM (fun (df : DeltaFilter) entry => do
    let deltaId ← DeltaId.fromStr entry
    let (result, df) := df.addToBlacklist deltaId
    (fun _ => df) <$> result) df

/-- `DeltaFilter::to_json`. -/
def toJson [SerdeValue DeltaFilterConfig] (df : DeltaFilter) (white black : HashIter String) :
    Result Value :=
  let config : DeltaFilterConfig := ⟨white.items df.whitelist, black.items df.blacklist⟩
  Outcome.ofExcept (SerdeValue.toValue config)

end DeltaFilter

end MeldaSec
