import HostBoundary.Proofs.Inheritance

namespace HostBoundary

namespace Heap

variable {h h' : Heap} {r : ObjectRef}

end Heap

variable {σ : Type} {host : Host σ} {diary : σ → List (World Unit)}

end HostBoundary
