import StakingSnapshot.Proofs.Snapshot.Follows

/-!
# What snapshots log

A bulk snapshot logs one event, when it ends, wherever that is: what it reads before is quiet in all
its rounds. The event says how it ended, and the result is that of the rounds.

* `Log.Event.Reports`: an event as the report of a result; `Snapshot.reports_event`.
* `Snapshot.Getter.quiet_unlogged`: what comes before the event.
* `Snapshot.Getter.Logs`: the getters; `Snapshot.getters_log`.
-/

namespace StakingSnapshot

variable {σ α : Type}

/-- The event says what was read, at which block, and how that ended. -/
structure Log.Event.Reports (event : Log.Event) (b : Snapshot.Bulk α) (block : BlockNumber)
    (result : Except Fault α) : Prop where
  entity : event.entity = some b.entity
  block : event.block = some block
  /-- If it ended well: how many records there are. -/
  complete : ∀ v, result = .ok v → event.level = .info ∧ event.message = "snapshot_complete" ∧
    event.itemCount = some (b.records v) ∧ event.errorMessage = none
  /-- If it did not: the whole text of the fault, in all its contexts. -/
  failed : ∀ f, result = .error f → event.level = .error ∧ event.message = "snapshot_error" ∧
    event.itemCount = none ∧ event.errorMessage = some f.message

namespace Snapshot

theorem reports_event (b : Bulk α) (block : BlockNumber) (result : Except Fault α) :
    (event b.entity block b.records result).Reports b block result := by
  cases result with
  | ok v =>
    refine ⟨rfl, rfl, fun v' hv => ?_, nofun⟩
    cases hv
    exact ⟨rfl, rfl, rfl, rfl⟩
  | error f =>
    refine ⟨rfl, rfl, nofun, fun f' hf => ?_⟩
    cases hf
    exact ⟨rfl, rfl, rfl, rfl⟩

/-- The event comes last, and nothing else is different. -/
theorem logged_apply (entity : String) (block : BlockNumber) (count : α → Nat) (m : Read σ α)
    (s : σ) :
    logged entity block count m s =
      { m s with log := (m s).log ++ [event entity block count (m s).value] } := by
  have hrun : logged entity block count m s =
      ⟨(m s).value, (m s).chain, (m s).sent ++ [],
        (m s).log ++ [event entity block count (m s).value]⟩ := rfl
  rw [hrun, List.append_nil]

namespace Getter

variable (o : Observer σ) (r : Registry)

/-- Addresses, versions, balances, details and shares log nothing, also where they fail. -/
theorem quiet_unlogged (g : Getter α) : (g.unlogged o r).Follows .quiet :=
  g.follows_unlogged (Conduct.quiet_allowsCalls _ _)

/-- What a getter logs. -/
structure Logs (g : Getter α) : Prop where
  /-- Until the event nothing is logged. -/
  quiet : ∀ s, (g.unlogged o r s).log = []
  /-- The event is the only difference: values, faults and questions are those of the rounds. -/
  passed : ∀ s, g.read o r s = { g.unlogged o r s with log := (g.read o r s).log }
  /-- A bulk snapshot logs one event, which reports what it returns. -/
  once : ∀ b, g.bulk? = some b → ∀ s, ∃ event, (g.read o r s).log = [event] ∧
    event.Reports b r.blockNumber (g.read o r s).value
  /-- The other getters log nothing. -/
  never : g.bulk? = none → ∀ s, (g.read o r s).log = []

end Getter

/-- **One event for each bulk snapshot.** Whoever answers, and whatever is answered: the snapshots of
all minipools, of the minipools of a node, of all nodes, of the network and of all proposals log one
event each, and the other getters none. It has the name of what was read and the number of the
block of the registry. If records are returned, it is an info with their number, and if a fault is
returned, it is an error with the text of this fault. -/
theorem getters_log (o : Observer σ) (r : Registry) (g : Getter α) : g.Logs o r := by
  have hquiet : ∀ s, (g.unlogged o r s).log = [] := g.quiet_unlogged o r
  cases hbulk : g.bulk? with
  | none =>
    have hread : g.read o r = g.unlogged o r := by rw [g.read_eq, hbulk]
    constructor
    case quiet => exact hquiet
    case passed => exact fun s => by rw [hread]
    case once => exact fun b hb => nomatch hbulk.symm.trans hb
    case never => exact fun _ s => by rw [hread, hquiet]
  | some b =>
    have hread : g.read o r = logged b.entity r.blockNumber b.records (g.unlogged o r) := by
      rw [g.read_eq, hbulk]
    have hlog : ∀ s, (g.read o r s).log =
        [event b.entity r.blockNumber b.records (g.unlogged o r s).value] := by
      intro s
      rw [hread, logged_apply, hquiet, List.nil_append]
    constructor
    case quiet => exact hquiet
    case passed => exact fun s => by rw [hlog, hread, logged_apply, hquiet, List.nil_append]
    case once =>
      intro b' hb' s
      obtain rfl := Option.some.inj (hbulk.symm.trans hb')
      refine ⟨_, hlog s, ?_⟩
      rw [hread, logged_value]
      exact reports_event b r.blockNumber _
    case never => exact fun hnone => nomatch hbulk.symm.trans hnone

/-- If the first question of all has no answer, the log tells what it was asked for. -/
example :
    let down : Client Unit :=
      ⟨fun _ _ _ s => (.error (.transport "down"), s), fun s => (.error (.transport "down"), s)⟩
    (Getter.minipools.read ⟨{}, ⟨down, ⟨1⟩, 1⟩, ⟨1⟩⟩
      ⟨7, ⟨2⟩, ⟨1⟩, ⟨1, 2, 0⟩, Deployments.empty⟩ ()).log =
        [⟨.error, "snapshot_error", some "minipool", some 7, none,
          some "error getting minipool addresses: Transport error: down"⟩] := by
  rfl

end Snapshot

end StakingSnapshot
