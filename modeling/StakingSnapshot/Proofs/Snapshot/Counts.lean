import StakingSnapshot.Proofs.Minipool.Bulk
import StakingSnapshot.Proofs.Network.EffectiveStake
import StakingSnapshot.Proofs.Proposal.Fields

/-!
# Counts

What a contract counts decides how much is read. It is asked for first and alone, and nothing is
read of more items than the limit allows.

* `Outcome.GaveUp`: a read that failed after one question.
* `Read.Silent`: a read that asks nothing; `Scheduler.silent_batchQuery`: one of no items.
* `Snapshot.CountsFirst`: whoever answers, a count that is too large is refused and a count of zero
  ends the read; one lemma for each way to put such reads together.
* `Snapshot.Enumerates`: as many entries as are counted, each in the place of its index.
* `Snapshot.counts_honoured`: the reads of everything that a contract counts.
-/

namespace StakingSnapshot

open Contract

variable {σ α β ι : Type}

/-- The read failed for a cause, after it had put one question. -/
structure Outcome.GaveUp (x : Outcome σ (Except Fault α)) (question : Request) (cause : Fault) :
    Prop where
  value : ∃ e, x.value = .error e ∧ e.root = cause
  sent : x.sent = [question]

/-! ## Reads that ask nothing -/

/-- The read comes to a value without a question. -/
def Read.Silent (m : Read σ α) (a : α) : Prop := ∀ s, (m s).value = .ok a ∧ (m s).sent = []

namespace Read

variable {m : Read σ α} {f : α → Read σ β} {a : α} {b : β}

theorem silent_pure (a : α) : (pure a : Read σ α).Silent a := fun _ => ⟨rfl, rfl⟩

theorem Silent.context {text : String} (h : m.Silent a) : (m.context text).Silent a := fun s =>
  ⟨context_value_eq_ok_iff.2 (h s).1, sent_context.trans (h s).2⟩

theorem Silent.bind (hm : m.Silent a) (hf : (f a).Silent b) : (m >>= f).Silent b := fun s => by
  rw [bind_of_ok (hm s).1, (hm s).2]
  exact hf _

end Read

namespace Scheduler

variable {q : Scheduler σ} {block : BlockRef} {size : Nat} {plan : Plan ι}

theorem fill_nil (strict : Bool) (hsize : 1 ≤ size) (s : σ) :
    q.fill strict block size plan [] s = ⟨([], .ok []), s, [], []⟩ := by
  have hnil : chunks size ([] : List ι) = [] := by
    rw [chunks, if_pos (.inr rfl)]
  rw [fill, if_neg (Nat.ne_of_gt hsize), hnil]
  rfl

/-- To fill no items nothing is asked. -/
theorem silent_batchQuery (hsize : 1 ≤ size) : (q.batchQuery block size plan []).Silent [] :=
  fun s => by
    have hrun : q.batchQuery block size plan [] s =
        (q.fill true block size plan [] >>= fun p => pure (p.2.map fun _ => p.1)) s := rfl
    rw [hrun, Session.bind_apply, fill_nil true hsize]
    exact ⟨rfl, rfl⟩

theorem silent_flexBatchQuery (hsize : 1 ≤ size) :
    (q.flexBatchQuery block size plan []).Silent ([], []) := fun s => by
  have hrun : q.flexBatchQuery block size plan [] s =
      (q.fill false block size plan [] >>= fun p => pure (p.2.map fun flags => (p.1, flags))) s :=
    rfl
  rw [hrun, Session.bind_apply, fill_nil false hsize]
  exact ⟨rfl, rfl⟩

end Scheduler

theorem VersionProbe.silent_resolveAll {p : VersionProbe} {q : Scheduler σ} {block : BlockRef}
    {size : Nat} (hsize : 1 ≤ size) : (p.resolveAll q block size []).Silent [] :=
  (Scheduler.silent_flexBatchQuery hsize).bind (Read.silent_pure _)

section OfNothing

variable {o : Observer σ} (hpositive : o.config.batchSizes.Positive) (r : Registry)

include hpositive

theorem Snapshot.silent_etherBalances : (etherBalances o r []).Silent [] :=
  Scheduler.silent_batchQuery hpositive.balances

/-- Minipools, nodes and proposals without any of them. -/
theorem Minipool.silent_ofAddresses : (ofAddresses o r []).Silent [] := by
  have hdetails := hpositive.minipoolDetails
  exact (VersionProbe.silent_resolveAll hpositive.versions).context.bind <|
    (Snapshot.silent_etherBalances hpositive r).context.bind <|
      (Scheduler.silent_batchQuery hdetails).context.bind
        (Scheduler.silent_batchQuery hdetails).context

theorem Node.silent_ofAddresses : (ofAddresses o r []).Silent [] :=
  (Scheduler.silent_batchQuery hpositive.nodeDetails).context.bind <|
    (Snapshot.silent_etherBalances hpositive r).context.bind (Read.silent_pure _)

theorem Proposal.silent_ofIds : (ofIds o r []).Silent [] :=
  (Scheduler.silent_batchQuery hpositive.proposalDetails).context.bind (Read.silent_pure _)

end OfNothing

namespace Snapshot

/-! ## Counts that end a read -/

section CountsFirst

variable {A : Type} [Abi.Arguments A] {o : Observer σ} {block : BlockRef} {contract : Address}
  {method : Abi.Method A .uint256} {args : A} {s : σ}

/-- The question for what one method returns. -/
def question (o : Observer σ) (block : BlockRef) (contract : Address)
    (method : Abi.Method A .uint256) (args : A) : Request :=
  .aggregate o.scheduler.hub ⟨false, [⟨contract, method.callData args⟩]⟩ block

/-- Why a count is refused. -/
def tooMany (contract : Address) (method : Abi.Method A .uint256) (count : Word) : Fault :=
  .decode contract method.name s!"count {count.toNat} exceeds the limit of {maxItemCount} items"

/-- Whoever answers: if the contract counts more items than the limit allows, the read fails, and if
it counts none, the read comes to `nothing`. In both cases the count is all that was asked for. -/
structure CountsFirst (o : Observer σ) (block : BlockRef) (contract : Address)
    (method : Abi.Method A .uint256) (args : A) (read : Read σ α) (nothing : α) : Prop where
  refused : ∀ s c, (wordOf o block contract method args s).value = .ok c →
    maxItemCount < c.toNat →
      (read s).GaveUp (question o block contract method args) (tooMany contract method c)
  none : ∀ s, (wordOf o block contract method args s).value = .ok 0 →
    (read s).value = .ok nothing ∧ (read s).sent = [question o block contract method args]

/-- Whatever is answered, one call is sent. -/
theorem sent_wordOf :
    (wordOf o block contract method args s).sent = [question o block contract method args] := by
  have hsent : (wordOf o block contract method args s).sent =
      (o.scheduler.run (Job.ofCalls true block (.ok [Call.value method contract args])) 0 s).sent :=
    List.append_nil _
  rw [hsent]
  exact Job.sent_run _ _ _ _ _

variable {read : Read σ α} {next : α → Read σ β} {nothing : α} {nothing' : β}

/-- The count itself, when the word has been read. -/
theorem countsFirst_itemCount {word : Read σ Word}
    (hvalue : ∀ s c, (wordOf o block contract method args s).value = .ok c →
      (word s).value = .ok c)
    (hsent : ∀ s, (word s).sent = (wordOf o block contract method args s).sent) :
    CountsFirst o block contract method args
      (word >>= fun raw => Read.ofExcept (itemCount raw contract method.name)) 0 := by
  constructor
  case refused =>
    intro s c hc hmax
    have hcount : itemCount c contract method.name = .error (tooMany contract method c) :=
      if_neg (Nat.not_le_of_lt hmax)
    rw [Read.bind_of_ok (hvalue s c hc), hcount, hsent, sent_wordOf]
    exact ⟨⟨_, rfl, rfl⟩, rfl⟩
  case none =>
    intro s hc
    rw [Read.bind_of_ok (hvalue s 0 hc), hsent, sent_wordOf]
    exact ⟨rfl, rfl⟩

/-- A read with the count at its start. -/
theorem CountsFirst.bind (h : CountsFirst o block contract method args read nothing)
    (hnext : (next nothing).Silent nothing') :
    CountsFirst o block contract method args (read >>= next) nothing' := by
  constructor
  case refused =>
    intro s c hc hmax
    obtain ⟨⟨e, he, hroot⟩, hsent⟩ := h.refused s c hc hmax
    rw [Read.bind_of_error he]
    exact ⟨⟨e, rfl, hroot⟩, hsent⟩
  case none =>
    intro s hc
    obtain ⟨hvalue, hsent⟩ := h.none s hc
    obtain ⟨hvalue', hsent'⟩ := hnext (read s).chain
    rw [Read.bind_of_ok hvalue, hsent, hsent']
    exact ⟨hvalue', rfl⟩

theorem CountsFirst.context (h : CountsFirst o block contract method args read nothing)
    {text : String} : CountsFirst o block contract method args (read.context text) nothing := by
  constructor
  case refused =>
    intro s c hc hmax
    obtain ⟨⟨e, he, hroot⟩, hsent⟩ := h.refused s c hc hmax
    refine ⟨⟨.context text e, ?_, hroot⟩, Read.sent_context.trans hsent⟩
    rw [Read.context_value, he]
    rfl
  case none =>
    intro s hc
    obtain ⟨hvalue, hsent⟩ := h.none s hc
    exact ⟨Read.context_value_eq_ok_iff.2 hvalue, Read.sent_context.trans hsent⟩

theorem CountsFirst.logged (h : CountsFirst o block contract method args read nothing)
    {entity : String} {number : BlockNumber} {count : α → Nat} :
    CountsFirst o block contract method args (logged entity number count read) nothing := by
  constructor
  case refused =>
    intro s c hc hmax
    obtain ⟨hvalue, hsent⟩ := h.refused s c hc hmax
    exact ⟨hvalue, sent_logged.trans hsent⟩
  case none =>
    intro s hc
    obtain ⟨hvalue, hsent⟩ := h.none s hc
    exact ⟨hvalue, sent_logged.trans hsent⟩

/-- The count in front of one value for each index. -/
theorem countsFirst_counted {B : Type} [Abi.Arguments B] {k : Abi.Kind} {size : Nat}
    (hsize : 1 ≤ size) {item : Abi.Method B k} {itemArgs : Nat → B} {x : k.Value} :
    CountsFirst o block contract method args
      (counted o block contract size method args item itemArgs x) [] := by
  have hsplit : counted o block contract size method args item itemArgs x =
      (wordOf o block contract method args >>= fun raw =>
        Read.ofExcept (itemCount raw contract method.name)) >>= fun n =>
          o.scheduler.batchFetch block size
            (Plan.byIndex fun i => [.value item contract (itemArgs i)]) x n :=
    (bind_assoc _ _ _).symm
  rw [hsplit]
  exact (countsFirst_itemCount (fun _ _ h => h) fun _ => rfl).bind
    (Scheduler.silent_batchQuery hsize)

end CountsFirst

/-! ## What is read of as many items -/

/-- As many entries as are counted, if the limit allows so many, each in the place of its index. -/
structure Enumerates (count? : Option Word) (entry : Nat → α → Prop) (xs : List α) : Prop where
  count : ∃ c, count? = some c ∧ xs.length = c.toNat
  limit : xs.length ≤ maxItemCount
  entry : ∀ i x, xs[i]? = some x → entry i x

section Reads

variable {o : Observer σ}

/-- A snapshot of proposals has the numbers from 1 on. -/
theorem enumerates_proposals {chain : Chain} (ho : o.Watches chain) {r : Registry} {s : σ}
    {ps : List Proposal} (h : (Proposal.every o r s).value = .ok ps) :
    Enumerates (told (chain r.block) Proposals.getTotal (r.address .daoProtocolProposal) ())
      (fun i p => p.id.toNat = i + 1 ∧
        Proposal.Recorded (chain r.block) (r.address .daoProtocolProposal) p.id p) ps := by
  obtain ⟨hmax, hcount, hat⟩ := (Proposal.every_eq_ok_iff ho).1 h
  refine ⟨hcount, hmax, fun i p hp => ?_⟩
  have hrecorded := Proposal.recorded_of_observed? (hat i p hp)
  have hi : i < ps.length := (List.getElem?_eq_some_iff.1 hp).1
  have hfits : i + 1 < UInt64.size := by
    have hlimit : maxItemCount + 1 < UInt64.size := by decide
    omega
  have hnumber : p.id.toNat = i + 1 := by
    rw [hrecorded.id, UInt64.toNat_ofNat_of_lt' hfits]
  refine ⟨hnumber, ?_⟩
  rw [hrecorded.id]
  exact hrecorded

/-- **Counts are bounded and honoured.** Where a contract counts minipools, those of a node, nodes
or proposals, every read of them asks for the count first and alone, whoever answers. If the count
is larger than the limit, the read fails for that cause, which names the contract and the method,
and so do the reads that need the addresses, such as that of the stake of the network; no item is
asked for. If it is zero, nothing more is asked for. Against a chain, a read that ends well has
exactly as many entries as are counted, and each is what the chain tells for its index; the proposal
at an index is the one whose number is larger by one. -/
theorem counts_honoured (hsizes : ∀ size ∈ o.config.batchSizes.toList, 1 ≤ size) (r : Registry)
    (node : Address) :
    let minipools := r.address .minipoolManager
    let nodes := r.address .nodeManager
    let proposals := r.address .daoProtocolProposal
    (CountsFirst o r.block minipools MinipoolManager.getMinipoolCount ()
        (Minipool.addresses o r) [] ∧
      CountsFirst o r.block minipools MinipoolManager.getMinipoolCount ()
        (Minipool.every o r) []) ∧
    (CountsFirst o r.block minipools MinipoolManager.getNodeMinipoolCount node
        (Minipool.addressesOfNode o r node) [] ∧
      CountsFirst o r.block minipools MinipoolManager.getNodeMinipoolCount node
        (Minipool.ofNode o r node) []) ∧
    (CountsFirst o r.block nodes NodeManager.getNodeCount () (Node.addresses o r) [] ∧
      CountsFirst o r.block nodes NodeManager.getNodeCount () (Node.every o r) [] ∧
      CountsFirst o r.block nodes NodeManager.getNodeCount () (Network.effectiveStake o r) 0) ∧
    CountsFirst o r.block proposals Proposals.getTotal () (Proposal.every o r) [] ∧
    ∀ chain, o.Watches chain → ∀ s,
      (∀ as, (Minipool.addresses o r s).value = .ok as →
        Enumerates (told (chain r.block) MinipoolManager.getMinipoolCount minipools ())
          (fun i a => told (chain r.block) MinipoolManager.getMinipoolAt minipools
            (BitVec.ofNat 256 i) = some a) as) ∧
      (∀ as, (Minipool.addressesOfNode o r node s).value = .ok as →
        Enumerates (told (chain r.block) MinipoolManager.getNodeMinipoolCount minipools node)
          (fun i a => told (chain r.block) MinipoolManager.getNodeMinipoolAt minipools
            (node, BitVec.ofNat 256 i) = some a) as) ∧
      (∀ as, (Node.addresses o r s).value = .ok as →
        Enumerates (told (chain r.block) NodeManager.getNodeCount nodes ())
          (fun i a => told (chain r.block) NodeManager.getNodeAt nodes
            (BitVec.ofNat 256 i) = some a) as) ∧
      ∀ ps, (Proposal.every o r s).value = .ok ps →
        Enumerates (told (chain r.block) Proposals.getTotal proposals ())
          (fun i p => p.id.toNat = i + 1 ∧
            Proposal.Recorded (chain r.block) proposals p.id p) ps := by
  have hpositive := BatchSizes.positive_of_forall hsizes
  have haddresses := hpositive.addresses
  have hall : CountsFirst o r.block (r.address .minipoolManager) MinipoolManager.getMinipoolCount
      () (Minipool.addresses o r) [] := countsFirst_counted (k := .address) haddresses
  have hofNode : CountsFirst o r.block (r.address .minipoolManager)
      MinipoolManager.getNodeMinipoolCount node (Minipool.addressesOfNode o r node) [] :=
    countsFirst_counted (k := .address) haddresses
  have hnodes : CountsFirst o r.block (r.address .nodeManager) NodeManager.getNodeCount ()
      (Node.addresses o r) [] := by
    have hsplit : Node.addresses o r = _ := (bind_assoc _ _ _).symm
    rw [hsplit]
    exact (countsFirst_itemCount (fun _ _ h => Read.context_value_eq_ok_iff.2 h)
      fun _ => Read.sent_context).bind (Scheduler.silent_batchQuery haddresses).context
  have hproposals : CountsFirst o r.block (r.address .daoProtocolProposal) Proposals.getTotal ()
      (Proposal.count o r) 0 :=
    countsFirst_itemCount (fun _ _ h => Read.context_value_eq_ok_iff.2 h)
      fun _ => Read.sent_context
  refine ⟨⟨hall, (hall.context.bind (Minipool.silent_ofAddresses hpositive r)).logged⟩,
    ⟨hofNode, (hofNode.context.bind (Minipool.silent_ofAddresses hpositive r)).logged⟩,
    ⟨hnodes, (hnodes.bind (Node.silent_ofAddresses hpositive r)).logged, hnodes.context.bind
      ((Scheduler.silent_batchQuery hpositive.effectiveStake).context.bind (Read.silent_pure _))⟩,
    (hproposals.bind (Proposal.silent_ofIds hpositive r)).logged, fun chain ho s => ?_⟩
  have hselection : ∀ (sel : Minipool.Selection) as, (sel.addresses o r s).value = .ok as →
      Enumerates (sel.count? (chain r.block) r)
        (fun i a => sel.address? (chain r.block) r i = some a) as := fun sel as h => by
    obtain ⟨hmax, hcount, hat⟩ := (Minipool.Selection.addresses_eq_ok_iff ho).1 h
    exact ⟨hcount, hmax, hat⟩
  refine ⟨hselection .all, hselection (.ofNode node), fun as h => ?_,
    fun ps h => enumerates_proposals ho h⟩
  obtain ⟨hmax, hcount, hat⟩ := (Node.addresses_eq_ok_iff ho).1 h
  exact ⟨hcount, hmax, hat⟩

end Reads

end Snapshot

/-! ## A chain with one answer -/

/-- The chain on which every call returns the same word. -/
def Chain.telling (w : Word) : Chain := fun _ _ => ⟨true, Abi.word w.toNat⟩

namespace Chain.telling

variable {w : Word}

/-- An observer of the chain. -/
def observer (w : Word) : Observer Unit := ⟨{}, .ofChain (telling w) ⟨9⟩ 1, ⟨1⟩⟩

theorem watches : (observer w).Watches (telling w) where
  answers := client_answersFor _ _
  bounded := bounded_of_short fun _ _ => Abi.length_word_le _
  sizes := by
    simp only [observer]
    decide

/-- Every method that returns a word returns this one. -/
theorem told_word {A : Type} [Abi.Arguments A] {block : BlockRef} {contract : Address}
    {method : Abi.Method A .uint256} {args : A} :
    told (telling w block) method contract args = some w := by
  have hword : w.toNat ≤ Word.maxNat := Nat.le_of_lt_succ w.isLt
  have hreads := Abi.Reader.Reads.map (Abi.Reader.reads_word hword) (BitVec.ofNat 256)
  rw [BitVec.ofNat_toNat, BitVec.setWidth_eq] at hreads
  exact told_eq_some_iff.2 ⟨rfl, hreads.exactly⟩

/-- A strict read goes on with the word if it is a value of the kind that the method returns. -/
theorem passes_typed {S A : Type} [Abi.Arguments A] {k : Abi.Kind} {method : Abi.Method A k}
    {contract : Address} {args : A} {store : k.Value → S → S} {block : BlockRef}
    (h : (k.decode (Abi.word w.toNat)).isSome) :
    (Call.typed method contract args store).Passes true
      (telling w block (Call.typed method contract args store).sub) :=
  Call.passes_typed_iff.2 (Option.isSome_iff_exists.1 h)

end Chain.telling

namespace Snapshot

open Chain.telling
open Chain.twoNodes (registry)

/-- One minipool more than the limit, none, and one, which is at the address 1. -/
theorem counts_honoured_telling :
    (Minipool.every (observer 16777217) registry ()).GaveUp
      (question (observer 16777217) registry.block ⟨10⟩ MinipoolManager.getMinipoolCount ())
      (.decode ⟨10⟩ "getMinipoolCount" "count 16777217 exceeds the limit of 16777216 items") ∧
    (Minipool.addresses (observer 0) registry ()).value = .ok [] ∧
    (Minipool.addresses (observer 1) registry ()).value = .ok [⟨1⟩] ∧
    Enumerates (told (Chain.telling 1 registry.block) MinipoolManager.getMinipoolCount ⟨10⟩ ())
      (fun i a => told (Chain.telling 1 registry.block) MinipoolManager.getMinipoolAt ⟨10⟩
        (BitVec.ofNat 256 i) = some a) [⟨1⟩] := by
  have hsizes : ∀ size ∈ BatchSizes.toList {}, 1 ≤ size := by decide
  obtain ⟨⟨-, hmany⟩, -⟩ := counts_honoured (o := observer 16777217) hsizes registry ⟨1⟩
  obtain ⟨⟨hnone, -⟩, -⟩ := counts_honoured (o := observer 0) hsizes registry ⟨1⟩
  obtain ⟨-, -, -, -, hone⟩ := counts_honoured (o := observer 1) hsizes registry ⟨1⟩
  have hread : (Minipool.Selection.all.addresses (observer 1) registry ()).value = .ok [⟨1⟩] := by
    refine (Minipool.Selection.addresses_eq_ok_iff watches).2
      ⟨by decide, ⟨1, told_word, rfl⟩, fun i a ha => ?_⟩
    obtain ⟨hi, rfl⟩ := List.getElem?_eq_some_iff.1 ha
    obtain rfl := Nat.lt_one_iff.1 hi
    change _ = some (⟨1⟩ : Address)
    decide +kernel
  have hcount : ∀ w, (wordOf (observer w) registry.block ⟨10⟩ MinipoolManager.getMinipoolCount ()
      ()).value = .ok w := fun w => (wordOf_eq_ok_iff watches).2 told_word
  exact ⟨hmany.refused () _ (hcount _) (by decide), (hnone.none () (hcount 0)).1, hread,
    (hone _ watches ()).1 _ hread⟩

end Snapshot

end StakingSnapshot
