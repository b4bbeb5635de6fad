import StakingSnapshot.Proofs.Schedule.Failure
import StakingSnapshot.Proofs.Schedule.Same

/-!
# What sessions do, whatever is answered

A session puts questions and logs events. A `Conduct` says which of them are in order: none at all
is, and so is more of what is. A session follows a conduct if it does so in every state of the
client and whether or not it fails.

* `Conduct.asking`: all questions are of a kind, which for sessions is also written `Session.Asks`.
* `Conduct.quiet`: nothing is logged.
* `Session.Follows`, `Read.Follows`: one lemma for each way to put sessions and reads together.
* `Scheduler.follows_run` and its kin: reads send aggregates through the hub of their scheduler at
  the block that they are given, and log nothing.
-/

namespace StakingSnapshot

variable {σ α β S ι : Type}

/-- Which questions and events are in order. -/
structure Conduct where
  /-- These questions and these events, each in the order in which they come. -/
  allows : List Request → List Log.Event → Prop
  nil : allows [] []
  append : ∀ {sent sent' log log'}, allows sent log → allows sent' log' →
    allows (sent ++ sent') (log ++ log')

namespace Conduct

/-- Aggregates for a contract, to be evaluated at a block, are in order. -/
def AllowsCalls (c : Conduct) (hub : Address) (block : BlockRef) : Prop :=
  ∀ body, c.allows [.aggregate hub body block] []

/-- All questions are of a kind. -/
def asking (P : Request → Prop) : Conduct where
  allows sent _ := ∀ request ∈ sent, P request
  nil := nofun
  append h h' := List.forall_mem_append.2 ⟨h, h'⟩

/-- Nothing is logged. -/
def quiet : Conduct where
  allows _ log := log = []
  nil := rfl
  append h h' := List.append_eq_nil_iff.2 ⟨h, h'⟩

theorem quiet_allowsCalls (hub : Address) (block : BlockRef) : quiet.AllowsCalls hub block :=
  fun _ => rfl

end Conduct

/-- The session does only what is in order. -/
def Session.Follows (c : Conduct) (m : Session σ α) : Prop := ∀ s, c.allows (m s).sent (m s).log

/-- The read does only what is in order, whether or not it fails. -/
def Read.Follows (c : Conduct) (m : Read σ α) : Prop := ∀ s, c.allows (m s).sent (m s).log

/-- All questions of the session are of a kind. -/
def Session.Asks (P : Request → Prop) (m : Session σ α) : Prop := ∀ s, ∀ request ∈ (m s).sent, P request

/-- All questions of the read are of a kind, whether or not it fails. -/
def Read.Asks (P : Request → Prop) (m : Read σ α) : Prop := ∀ s, ∀ request ∈ (m s).sent, P request

/-- The request is an aggregate for a contract, to be evaluated at a block. -/
def Request.IsSent (hub : Address) (block : BlockRef) (request : Request) : Prop :=
  ∃ body, request = .aggregate hub body block

theorem Conduct.asking_allowsCalls (hub : Address) (block : BlockRef) :
    (asking (Request.IsSent hub block)).AllowsCalls hub block :=
  fun body _ h => ⟨body, List.mem_singleton.1 h⟩

variable {c : Conduct}

namespace Session

theorem follows_pure (a : α) : (pure a : Session σ α).Follows c := fun _ => c.nil

theorem Follows.bind {m : Session σ α} {f : α → Session σ β} (hm : m.Follows c)
    (hf : ∀ a, (f a).Follows c) : (m >>= f).Follows c := fun s =>
  c.append (hm s) (hf _ _)

end Session

namespace Read

theorem follows_pure (a : α) : (pure a : Read σ α).Follows c := fun _ => c.nil

theorem follows_ofExcept (r : Except Fault α) : (ofExcept r : Read σ α).Follows c := fun _ => c.nil

/-- What comes after a read that fails is not done. -/
theorem Follows.bind {m : Read σ α} {f : α → Read σ β} (hm : m.Follows c)
    (hf : ∀ a, (f a).Follows c) : (m >>= f).Follows c := by
  intro s
  cases h : (m s).value with
  | error e =>
    rw [bind_of_error h]
    exact hm s
  | ok a =>
    rw [bind_of_ok h]
    exact c.append (hm s) (hf a _)

theorem Follows.context {m : Read σ α} {text : String} (hm : m.Follows c) :
    (m.context text).Follows c :=
  Session.Follows.bind (show Session.Follows c m.run from hm) fun _ => Session.follows_pure _

end Read

/-- An event at the end has to be in order too. -/
theorem Snapshot.follows_logged {m : Read σ α} {entity : String} {block : BlockNumber}
    {count : α → Nat} (hm : m.Follows c) (hlog : ∀ e, c.allows [] [e]) :
    (logged entity block count m).Follows c :=
  Session.Follows.bind (show Session.Follows c m.run from hm) fun _ =>
    Session.Follows.bind (fun _ => hlog _) fun _ => Session.follows_pure _

namespace Scheduler

variable {q : Scheduler σ} {strict : Bool} {block : BlockRef} {size : Nat} {plan : Plan ι}

/-- A job sends one aggregate at most. -/
theorem follows_run {job : Job S} (hc : c.AllowsCalls q.hub job.block) (slots : S) :
    (q.run job slots).Follows c := by
  intro s
  rw [run, Job.sent_run, Job.log_run, Job.requests]
  split
  · exact c.nil
  · split
    · exact c.nil
    · exact hc _

variable (hc : c.AllowsCalls q.hub block)

include hc

theorem follows_runChunks (number start : Nat) (cs : List (List ι)) :
    (q.runChunks strict block plan number start cs).Follows c := by
  induction cs generalizing number start with
  | nil => exact Session.follows_pure _
  | cons head cs ih =>
    rw [runChunks]
    refine (follows_run hc head).bind fun p => ?_
    obtain ⟨head', e | flags⟩ := p
    · exact Session.follows_pure _
    · exact (ih _ _).bind fun _ => Session.follows_pure _

theorem follows_fill (items : List ι) :
    (q.fill strict block size plan items).Follows c := by
  unfold fill
  split
  · exact Session.follows_pure _
  · exact follows_runChunks hc 0 0 _

theorem follows_query (calls : List (Call S)) (slots : S) :
    (q.query block calls slots).Follows c :=
  (follows_run hc slots).bind fun _ => Session.follows_pure _

theorem follows_flexQuery (calls : List (Call S)) (slots : S) :
    (q.flexQuery block calls slots).Follows c :=
  (follows_run hc slots).bind fun _ => Session.follows_pure _

theorem follows_batchQuery (items : List ι) :
    (q.batchQuery block size plan items).Follows c :=
  (follows_fill hc items).bind fun _ => Session.follows_pure _

theorem follows_flexBatchQuery (items : List ι) :
    (q.flexBatchQuery block size plan items).Follows c :=
  (follows_fill hc items).bind fun _ => Session.follows_pure _

end Scheduler

end StakingSnapshot
