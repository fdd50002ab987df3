import HostBoundary.Main
import HostBoundary.Proofs.AccessorFailures
import HostBoundary.Proofs.ArrayLimit
import HostBoundary.Proofs.CanonicalValues
import HostBoundary.Proofs.Confinement
import HostBoundary.Proofs.DomainCallbacks
import HostBoundary.Proofs.ElementValues
import HostBoundary.Proofs.ExternalMemory
import HostBoundary.Proofs.Finalizers
import HostBoundary.Proofs.Lifecycle
import HostBoundary.Proofs.NameOrder
import HostBoundary.Proofs.Propagation
import HostBoundary.Proofs.PropertyKeys
import HostBoundary.Proofs.Representation
import HostBoundary.Proofs.Reproduction
import HostBoundary.Proofs.TransientHandles
import HostBoundary.Proofs.WireFormat
