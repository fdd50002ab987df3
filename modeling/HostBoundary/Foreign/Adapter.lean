import HostBoundary.Environment.Lifetime

namespace HostBoundary.Foreign

variable {σ : Type}

-- Runs a foreign routine with a handle of its own, for as long as it runs. The result
-- is read while the handle is still held; one that does not read is an exception.
def bracket (host : Host σ) (n : EnvironmentId) (surface : Surface)
    (routine : ForeignEnvironment → Act σ (Bool × WireValue)) : Act σ (Option Tagged) := do
  Environment.acquire n
  let (ok, result) ← routine ⟨n, surface⟩
  let answer ←
    if !ok then pure none
    else
      match result.toTagged with
      | .ok value => pure (some value)
      | .error e =>
        Act.setException n (.native s!"native callback returned {e.message}")
        pure none
  Environment.drop host n
  pure answer

def receiverWord (this : Option Handle) : UInt64 := (this.map (·.raw)).getD 0

end HostBoundary.Foreign

namespace HostBoundary.NativeFunction

variable {σ : Type}

def call (host : Host σ) (f : NativeFunction) (n : EnvironmentId) (this : Option Handle)
    (args : List Tagged) : Act σ (Option Tagged) :=
  match f.foreign with
  | none => host.function f.code n this args
  | some surface =>
    Foreign.bracket host n surface fun env =>
      host.foreignFunction f.code env (Foreign.receiverWord this) (args.map .ofTagged)

def get (host : Host σ) (f : NativeFunction) (n : EnvironmentId) (this : Handle) :
    Act σ (Option Tagged) :=
  match f.foreign with
  | none => host.getter f.code n this
  | some surface =>
    Foreign.bracket host n surface fun env => host.foreignGetter f.code env this.raw

def set (host : Host σ) (f : NativeFunction) (n : EnvironmentId) (this : Handle) (value : Tagged) :
    Act σ Bool :=
  match f.foreign with
  | none => host.setter f.code n this value
  | some surface => do
    Environment.acquire n
    let accepted ← host.foreignSetter f.code ⟨n, surface⟩ this.raw (.ofTagged value)
    Environment.drop host n
    pure accepted

end HostBoundary.NativeFunction
