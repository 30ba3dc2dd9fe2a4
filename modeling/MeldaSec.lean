import MeldaSec.Lib.Outcome
import MeldaSec.Lib.Loop
import MeldaSec.Lib.Agreement
import MeldaSec.Lib.Hex
import MeldaSec.Lib.Regex
import MeldaSec.Lib.Base64
import MeldaSec.Crates
import MeldaSec.Adapter
import MeldaSec.KeyStore
import MeldaSec.DeltaFilter
import MeldaSec.EncryptionAdapter
import MeldaSec.Policy.Engine
import MeldaSec.Policy.Dsl
import MeldaSec.Utils
import MeldaSec.EndorsementKey
import MeldaSec.TrustAdapter
import MeldaSec.Endorsements
import MeldaSec.Lib.Quorum
import MeldaSec.Gate
import MeldaSec.Repository
import MeldaSec.Reference
import MeldaSec.Reference.Cipher
import MeldaSec.Policy.Loading
import MeldaSec.Configuration
import MeldaSec.Reference.Configuration
import MeldaSec.EndorsementNames
import MeldaSec.Authorisation
import MeldaSec.ReadPath
import MeldaSec.Modes
import MeldaSec.Governance
import MeldaSec.Totality
import MeldaSec.Isolation
import MeldaSec.LocalSigner
import MeldaSec.OwnEndorsement
import MeldaSec.Reload
import MeldaSec.WriteReload
import MeldaSec.KeyStoreRuns
import MeldaSec.Revocation
import MeldaSec.OrderIndependence
import MeldaSec.Encryption
import MeldaSec.Slices
import MeldaSec.Unforgeability
import MeldaSec.Lib.Interleave
import MeldaSec.Concurrency
import MeldaSec.Lib.Atomicity
import MeldaSec.Programs
import MeldaSec.Ledger
import MeldaSec.Linearizability
import MeldaSec.Visibility
import MeldaSec.Corruption
import MeldaSec.Stacks
import MeldaSec.KeyStoreHistory
import MeldaSec.Electorate
import MeldaSec.Restarts
import MeldaSec.Sealing
import MeldaSec.Towers
import MeldaSec.Tenants
import MeldaSec.Lib.Interference
import MeldaSec.Interference
import MeldaSec.Threshold
