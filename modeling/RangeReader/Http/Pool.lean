import RangeReader.Http.Client

/-!
# Settings of an HTTP session

How a session checks the service it talks to, how often it retries a request
by itself, and how many connections it keeps. Every process has a session of
its own, built the first time it is asked for.
-/

namespace RangeReader.Http

/-- How a session checks the certificate of the service. -/
inductive Verification where
  /-- Not at all. -/
  | skipped
  /-- By the trusted certificates in a file. -/
  | bundle (path : String)
  /-- By the certificates the system trusts. -/
  | system
  deriving DecidableEq, Repr

/-- **Settings of a session.** -/
structure PoolSettings where
  /-- The file of trusted certificates, as it was given. -/
  caCert : Option String := none
  /-- Whether the service is not checked. -/
  skipVerify : Bool := false
  /-- The number of connections kept for each host. -/
  maxPoolSize : Int := 10
  /-- The retries of a request by its status. -/
  retries : StatusRetries := {}

/-- **How a session with these settings checks the service**: the file that
was given comes before that of the environment. -/
def PoolSettings.verification (p : PoolSettings) (env : Environment) : Verification :=
  if p.skipVerify then .skipped
  else ((given? p.caCert).or (given? env.caBundle)).elim .system .bundle

/-- **The sessions of a program**, by the process that uses them. A session
is known by the order in which it was built. -/
structure Pool where
  /-- The processes with a session, the last one first. -/
  processes : List Nat := []

/-- The session of a process, built now where there is none. -/
def Pool.session (p : Pool) (process : Nat) : Nat × Pool :=
  match p.processes.reverse.idxOf? process with
  | some i => (i, p)
  | none => (p.processes.length, ⟨process :: p.processes⟩)

end RangeReader.Http
