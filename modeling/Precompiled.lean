import Precompiled.Blob.Assembly
import Precompiled.Blob.Damage
import Precompiled.Inspection.Session
import Precompiled.Proofs.Blob.CountedLists
import Precompiled.Proofs.Blob.Names
import Precompiled.Proofs.Checksum
import Precompiled.Proofs.Fingerprint
import Precompiled.Proofs.Got.Callbacks
import Precompiled.Proofs.Heap.Confinement
import Precompiled.Proofs.Heap.Hull
import Precompiled.Proofs.Heap.InFlight
import Precompiled.Proofs.Heap.Lifecycle
import Precompiled.Proofs.Heap.Linkability
import Precompiled.Proofs.Heap.MetadataWalks
import Precompiled.Proofs.Heap.Referents
import Precompiled.Proofs.Heap.Routines
import Precompiled.Proofs.Heap.Stability
import Precompiled.Proofs.Heap.Tenure
import Precompiled.Proofs.Library.Damage
import Precompiled.Proofs.Library.RoundTrip
import Precompiled.Proofs.Library.WellFormed
import Precompiled.Proofs.Session.Rejection
import Precompiled.Proofs.Session.Residence
import Precompiled.Proofs.Traps.Untrusted
import Precompiled.Rehearsal.Table
