import StakingSnapshot.Config
import StakingSnapshot.Rpc
import StakingSnapshot.Version

/-!
# Observers

An observer is what every snapshot is taken with: a configuration that has been checked, a scheduler
for the reads, and the probe for versions.

* `Observer.make?` observes through a given client, `Observer.connect?` through the endpoint of the
  configuration.
* `Observer.latestBlock` asks for the number of the latest block.
-/

namespace StakingSnapshot

/-- Takes snapshots of a chain. -/
structure Observer (σ : Type) where
  config : Config
  scheduler : Scheduler σ
  probe : VersionProbe

namespace Observer

variable {σ : Type}

/-- An observer who asks a client. -/
def make? (config : Config) (client : Client σ) : Except Fault (Observer σ) := do
  config.validate
  let scheduler ← Scheduler.make? client config.hub config.concurrency
  return ⟨config, scheduler, ⟨config.fallbackVersion⟩⟩

/-- An observer who asks the endpoint of the configuration. -/
def connect? (config : Config) (exchange : Exchange) : Except Fault (Observer Unit) := do
  match config.rpcUrl with
  | none => .error (.config "Missing config value: rpc_url")
  | some url => make? config ((← Endpoint.open? url config.timeoutMs).client exchange)

/-- The number of the latest block. -/
def latestBlock (o : Observer σ) : Read σ BlockNumber :=
  ExceptT.mk (Session.askHead o.scheduler.client)

end Observer

end StakingSnapshot
