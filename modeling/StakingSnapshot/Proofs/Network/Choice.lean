import StakingSnapshot.Proofs.Network.Fields
import StakingSnapshot.Proofs.Snapshot.Counts
import StakingSnapshot.Proofs.Snapshot.Same

/-!
# What depends on the caller's choice

The caller chooses between frequencies and reportable blocks.

* `Network.otherSelectors`: the methods that are not chosen;
  `Network.not_other_of_asked_fetch`: nobody is asked for them.
* `Network.same_fetch`: what the chain would answer to them does not matter.
* `Network.Observed.shared_eq`: records read with different choices differ in the chosen fields
  only.
* `Network.fetch_honours_choice`: all of it together.
-/

namespace StakingSnapshot

namespace Network

open Contract

/-- The selectors of the methods that are not chosen. -/
def otherSelectors : Bool → List UInt32
  | true => [Prices.getLatestReportableBlock.selector, Balances.getLatestReportableBlock.selector]
  | false =>
    [NetworkSettings.getSubmitPricesFrequency.selector,
      NetworkSettings.getSubmitBalancesFrequency.selector]

/-- The record without the fields that the choice is about. -/
def shared (n : Network) : Network :=
  { n with
    latestPricesBlock := .ofRaw 0
    latestBalancesBlock := .ofRaw 0
    pricesFrequency := .ofRaw 0
    balancesFrequency := .ofRaw 0 }

variable {σ τ : Type} {o : Observer σ} {o' : Observer τ} {chain chain' : Chain} {r : Registry}
  {hasFrequencies : Bool} {c : SubCall} {s : σ} {s' : τ} {n n' : Network}

/-! ## Nobody is asked for what is not chosen -/

theorem not_other {α : Type} {k : Abi.Kind} {m : Abi.Method α k} (h : c.Names m)
    (hm : m.selector ∉ otherSelectors hasFrequencies) :
    ¬ c.NamesOneOf (otherSelectors hasFrequencies) :=
  fun hother => hm (h.namesOneOf_iff.1 hother)

theorem not_other_detailsCalls :
    ∀ c ∈ (detailsCalls r hasFrequencies).map Call.sub,
      ¬ c.NamesOneOf (otherSelectors hasFrequencies) := by
  rw [List.forall_mem_map]
  cases hasFrequencies
  all_goals
    simp only [detailsCalls, rewardCalls, poolCalls, balanceCalls, settingCalls, frequencyCalls,
      reportableCalls, if_true, if_false, Bool.false_eq_true, List.forall_mem_append,
      List.forall_mem_cons, List.not_mem_nil, false_imp_iff, implies_true, and_true]
    and_intros
  all_goals exact not_other (Call.names_typed_iff.2 rfl) (by decide)

theorem getEthBalance_not_other : Hub.getEthBalance.selector ∉ otherSelectors hasFrequencies := by
  cases hasFrequencies
  all_goals decide

/-- Whoever answers, no call is for a method that is not chosen. -/
theorem not_other_of_asked_fetch (h : (fetch o r hasFrequencies s).Asked c) :
    ¬ c.NamesOneOf (otherSelectors hasFrequencies) := by
  have h := Snapshot.asked_logged_iff.1 h
  rcases Read.asked_bind_iff.1 h with h | ⟨x, -, h⟩
  · have hc := Scheduler.registered_of_asked_query (Read.asked_context_iff.1 h)
    exact not_other_detailsCalls c hc
  rcases Read.asked_bind_iff.1 h with h | ⟨balances, -, h⟩
  · have hc := Snapshot.names_of_asked_etherBalances (Read.asked_context_iff.1 h)
    exact not_other hc getEthBalance_not_other
  · exact absurd h Read.not_asked_pure

/-- **Two chains.** If they agree on all other methods, what is read of them is the same. -/
theorem same_fetch (ht : o.Twins o' chain chain')
    (hsame : ∀ c : SubCall, ¬ c.NamesOneOf (otherSelectors hasFrequencies) →
      chain' r.block c = chain r.block c) :
    (fetch o r hasFrequencies s).Same (fetch o' r hasFrequencies s') := by
  refine Snapshot.same_logged _ _ _ (Read.same_bind (Read.same_context _ ?details) fun x _ t t' =>
    Read.same_bind (Read.same_context _ ?balances) fun balances _ t t' => Read.same_pure _ t t')
  case details =>
    exact Scheduler.same_query ht.scheduler (sized_detailsCalls ht.watches) fun c hc =>
      hsame c (not_other_detailsCalls c hc)
  case balances =>
    exact Snapshot.same_etherBalances ht (Snapshot.length_pair_le _ _) fun c hc =>
      hsame c (not_other hc getEthBalance_not_other)

/-! ## Two choices -/

theorem spares_shared :
    ∀ c ∈ if hasFrequencies then frequencyCalls r else reportableCalls r, c.Spares shared := by
  cases hasFrequencies
  all_goals
    simp only [frequencyCalls, reportableCalls, if_true, if_false, Bool.false_eq_true,
      List.forall_mem_cons, List.not_mem_nil, false_imp_iff, implies_true, and_true]
    exact ⟨Call.spares_typed fun _ _ => rfl, Call.spares_typed fun _ _ => rfl⟩

/-- Whatever is chosen, the other fields are those that the calls before it filled. -/
theorem shared_applied {answer : SubCall → CallResult} {x : Network} :
    shared (applied answer (detailsCalls r hasFrequencies) x) =
      shared (applied answer (settingCalls r) (applied answer (balanceCalls r)
        (applied answer (poolCalls r) (applied answer (rewardCalls r) x)))) := by
  simp only [detailsCalls, applied_append]
  exact Call.look_applied_of_spares spares_shared _

/-- Records read with different choices differ in the chosen fields only. -/
theorem Observed.shared_eq {answer : SubCall → CallResult} {b b' : Bool}
    (h : Observed answer r b n) (h' : Observed answer r b' n') : shared n' = shared n := by
  obtain ⟨-, pool, hpool, liquid, hliquid, rfl⟩ := h
  obtain ⟨-, pool', hpool', liquid', hliquid', rfl⟩ := h'
  obtain rfl := Option.some.inj (hpool.symm.trans hpool')
  obtain rfl := Option.some.inj (hliquid.symm.trans hliquid')
  have hdetails : shared (applied answer (detailsCalls r b') (start r)) =
      shared (applied answer (detailsCalls r b) (start r)) :=
    shared_applied.trans shared_applied.symm
  exact congrArg
    (fun x : Network => { x with smoothingPoolBalance := pool, liquidEther := liquid }) hdetails

/-- What agrees outside of the chosen fields. -/
theorem eq_of_shared_eq (h : shared n' = shared n) :
    n' = { n with
      latestPricesBlock := n'.latestPricesBlock
      latestBalancesBlock := n'.latestBalancesBlock
      pricesFrequency := n'.pricesFrequency
      balancesFrequency := n'.balancesFrequency } :=
  congrArg
    (fun x : Network => { x with
      latestPricesBlock := n'.latestPricesBlock
      latestBalancesBlock := n'.latestBalancesBlock
      pricesFrequency := n'.pricesFrequency
      balancesFrequency := n'.balancesFrequency }) h

/-- **The choice is honoured.** Against a chain, a read that ends well records in every field what
the contract that the field is about tells; the fields that are not chosen are zero. What is not
chosen is not asked for, and what the chain would answer to it changes nothing. Records that are
read with different choices agree in all other fields. How an observer batches the balances, and
whom it asks, does not show in what it reads. -/
theorem fetch_honours_choice (ho : o.Watches chain) (ho' : o'.Watches chain) (r : Registry) (s : σ)
    (s' : τ) :
    (∀ hasFrequencies,
      (∀ n, (fetch o r hasFrequencies s).value = .ok n →
        Recorded (chain r.block) r hasFrequencies n) ∧
      (∀ n, (fetch o r hasFrequencies s).value = .ok n ↔
        (fetch o' r hasFrequencies s').value = .ok n) ∧
      (∀ c, (fetch o r hasFrequencies s).Asked c →
        ¬ c.NamesOneOf (otherSelectors hasFrequencies)) ∧
      ∀ {υ : Type} (o'' : Observer υ) (chain' : Chain) (s'' : υ), o.Twins o'' chain chain' →
        (∀ c : SubCall, ¬ c.NamesOneOf (otherSelectors hasFrequencies) →
          chain' r.block c = chain r.block c) →
        (fetch o r hasFrequencies s).Same (fetch o'' r hasFrequencies s'')) ∧
    ∀ n n', (fetch o r true s).value = .ok n → (fetch o' r false s').value = .ok n' →
      n' = { n with
        latestPricesBlock := n'.latestPricesBlock
        latestBalancesBlock := n'.latestBalancesBlock
        pricesFrequency := n'.pricesFrequency
        balancesFrequency := n'.balancesFrequency } := by
  constructor
  · intro hasFrequencies
    refine ⟨fun n h => recorded_of_observed ((fetch_eq_ok_iff ho).1 h), fun n => ?_,
      fun c => not_other_of_asked_fetch, fun o'' chain' s'' ht => same_fetch ht⟩
    exact (fetch_eq_ok_iff ho).trans (fetch_eq_ok_iff ho').symm
  · intro n n' h h'
    have hobserved := (fetch_eq_ok_iff ho).1 h
    have hobserved' := (fetch_eq_ok_iff ho').1 h'
    exact eq_of_shared_eq (hobserved.shared_eq hobserved')

/-! ## A chain that answers alike -/

open Chain.telling
open Chain.twoNodes (registry)

/-- Where every call returns one, everything is told. -/
theorem observed_telling {block : BlockRef} :
    ∃ n, Observed (Chain.telling 1 block) r hasFrequencies n := by
  refine ⟨_, ?_, 1, told_word, 1, told_word, rfl⟩
  cases hasFrequencies
  all_goals
    simp only [detailsCalls, rewardCalls, poolCalls, balanceCalls, settingCalls, frequencyCalls,
      reportableCalls, if_true, if_false, Bool.false_eq_true, List.forall_mem_append,
      List.forall_mem_cons, List.not_mem_nil, false_imp_iff, implies_true, and_true]
    and_intros
  all_goals exact passes_typed (by decide +kernel)

/-- The chain on which every call returns one, but those for reportable blocks fail. -/
def unreported : Chain := fun block c =>
  if c.NamesOneOf (otherSelectors true) then ⟨false, []⟩ else Chain.telling 1 block c

/-- An observer of a chain that reads one balance at a time. -/
def singly (chain : Chain) : Observer Unit :=
  ⟨{ batchSizes := { balances := 1 } }, .ofChain chain ⟨9⟩ 1, ⟨1⟩⟩

theorem twins_singly : (singly (Chain.telling 1)).Twins (singly unreported) (Chain.telling 1)
    unreported where
  watches := {
    answers := Chain.client_answersFor _ _
    bounded := (watches (w := 1)).bounded
    sizes := by
      simp only [singly]
      decide }
  watches' := {
    answers := Chain.client_answersFor _ _
    bounded := fun block c => by
      unfold unreported
      split
      · exact Nat.zero_le _
      · exact (watches (w := 1)).bounded block c
    sizes := by
      simp only [singly]
      decide }
  config := rfl
  probe := rfl
  hub := rfl
  limit := rfl

/-- Both choices can be read where every call returns one. What is read with frequencies, one
balance at a time, is also read with both balances at once, and where no reportable block is
told. -/
theorem fetch_honours_choice_telling :
    ∃ n n', (fetch (singly (Chain.telling 1)) registry true ()).value = .ok n ∧
      Recorded (Chain.telling 1 registry.block) registry true n ∧
      (fetch (observer 1) registry true ()).value = .ok n ∧
      (fetch (singly unreported) registry true ()).value = .ok n ∧
      (fetch (observer 1) registry false ()).value = .ok n' ∧
      n' = { n with
        latestPricesBlock := n'.latestPricesBlock
        latestBalancesBlock := n'.latestBalancesBlock
        pricesFrequency := n'.pricesFrequency
        balancesFrequency := n'.balancesFrequency } := by
  have htwins := twins_singly
  obtain ⟨n, hn⟩ : ∃ n, Observed (Chain.telling 1 registry.block) registry true n :=
    observed_telling
  obtain ⟨n', hn'⟩ : ∃ n, Observed (Chain.telling 1 registry.block) registry false n :=
    observed_telling
  have hread : (fetch (singly (Chain.telling 1)) registry true ()).value = .ok n :=
    (fetch_eq_ok_iff htwins.watches).2 hn
  have hread' : (fetch (observer 1) registry false ()).value = .ok n' :=
    (fetch_eq_ok_iff watches).2 hn'
  obtain ⟨hone, hboth⟩ := fetch_honours_choice htwins.watches watches registry () ()
  obtain ⟨hrecorded, hsizes, -, htwo⟩ := hone true
  have hsame := htwo (singly unreported) unreported () htwins fun c hc => if_neg hc
  exact ⟨n, n', hread, hrecorded n hread, (hsizes n).1 hread, hsame.value.trans hread, hread',
    hboth n n' hread hread'⟩

end Network

end StakingSnapshot
