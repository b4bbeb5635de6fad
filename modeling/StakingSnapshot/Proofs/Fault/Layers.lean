import Mathlib.Data.List.Induction
import StakingSnapshot.Fault
import StakingSnapshot.Proofs.Text.Decimal

/-!
# Contexts in front of faults

A fault that is passed on gets contexts, one after the other. They are seen in its text and in the
faults inside it, and nowhere else.

* `Fault.under`, `withContexts`: a fault and a result under contexts.
* `Fault.Layered`: what is seen of a fault under contexts.
* `Fault.sources_under`: the faults inside it are under fewer of the contexts.
* `Fault.eq_of_message_callsFailed`: which calls failed can be told from the text.
* `Fault.layers_transparent`: all of these.
-/

namespace StakingSnapshot

variable {α : Type} {e : Fault} {texts : List String}

namespace Fault

/-- There is no context in front of the fault. -/
def IsCause (e : Fault) : Prop := ∀ text source, e ≠ .context text source

/-- The fault under contexts. Each of them is put in front of those before it. -/
def under (e : Fault) (texts : List String) : Fault := texts.foldl (fun f text => .context text f) e

theorem under_append_singleton (e : Fault) (texts : List String) (text : String) :
    e.under (texts ++ [text]) = .context text (e.under texts) := List.foldl_append ..

end Fault

/-- The result with contexts in front of its fault, if it has one. -/
def withContexts (texts : List String) (result : Except Fault α) : Except Fault α :=
  texts.foldl (fun r text => withContext text r) result

theorem withContexts_error (texts : List String) (e : Fault) :
    withContexts texts (.error e : Except Fault α) = .error (e.under texts) := by
  induction texts generalizing e with
  | nil => rfl
  | cons text texts ih => exact ih (.context text e)

theorem withContexts_ok (texts : List String) (a : α) :
    withContexts texts (.ok a) = .ok a := by
  induction texts with
  | nil => rfl
  | cons text texts ih => exact ih

namespace Fault

/-! ## The text and the cause -/

theorem message_under (e : Fault) (texts : List String) :
    (e.under texts).message = ": ".intercalate (texts.reverse ++ [e.message]) := by
  induction texts using List.reverseRecOn with
  | nil => simp [under]
  | append_singleton texts text ih =>
    have hrest : texts.reverse ++ [e.message] ≠ [] :=
      List.append_ne_nil_of_right_ne_nil _ (List.cons_ne_nil _ _)
    rw [under_append_singleton, List.reverse_append, List.reverse_singleton,
      List.singleton_append, List.cons_append, String.intercalate_cons_of_ne_nil hrest, ← ih]
    rfl

theorem root_of_isCause (he : e.IsCause) : e.root = e := by
  cases e with
  | context text source => exact absurd rfl (he text source)
  | _ => rfl

theorem sources_of_isCause (he : e.IsCause) : e.sources = [] := by
  cases e with
  | context text source => exact absurd rfl (he text source)
  | _ => rfl

theorem root_under (he : e.IsCause) (texts : List String) : (e.under texts).root = e := by
  induction texts using List.reverseRecOn with
  | nil => exact root_of_isCause he
  | append_singleton texts text ih =>
    rw [under_append_singleton]
    exact ih

theorem kind_under (he : e.IsCause) (texts : List String) : (e.under texts).kind = e.kind := by
  rw [← kind_root, root_under he]

/-! ## The faults inside -/

/-- From outside in, each fault inside is under one context less. -/
theorem sources_under (he : e.IsCause) (texts : List String) :
    (e.under texts).sources =
      ((List.range texts.length).map fun i => e.under (texts.take i)).reverse := by
  induction texts using List.reverseRecOn with
  | nil => exact sources_of_isCause he
  | append_singleton texts text ih =>
    have hfront : ∀ i ∈ List.range texts.length,
        e.under ((texts ++ [text]).take i) = e.under (texts.take i) := fun i hi => by
      rw [List.take_append_of_le_length (Nat.le_of_lt (List.mem_range.1 hi))]
    rw [under_append_singleton, sources, ih, List.length_append, List.length_singleton,
      List.range_succ, List.map_append, List.map_congr_left hfront, List.map_singleton,
      List.take_left, List.reverse_append, List.reverse_singleton, List.singleton_append]

theorem getElem?_sources_under (he : e.IsCause) {i : Nat} (hpos : 1 ≤ i) (hi : i ≤ texts.length) :
    (e.under texts).sources[i - 1]? = some (e.under (texts.take (texts.length - i))) := by
  have hindex : texts.length - 1 - (i - 1) = texts.length - i := by omega
  rw [sources_under he, List.getElem?_reverse (by simp; omega), List.length_map, List.length_range,
    hindex, List.getElem?_map, List.getElem?_range (by omega)]
  rfl

/-- What is seen of a fault with contexts in front of it, the last one outermost. -/
structure Layered (e : Fault) (texts : List String) (f : Fault) : Prop where
  kind : f.kind = e.kind
  retryable : f.isRetryable = e.isRetryable
  root : f.root = e
  message : f.message = ": ".intercalate (texts.reverse ++ [e.message])
  /-- There are as many faults inside as there are contexts. -/
  count : f.sources.length = texts.length
  /-- The text of each of them is without so many of the outermost contexts. -/
  source : ∀ i, 1 ≤ i → i ≤ texts.length → ∃ g, f.sources[i - 1]? = some g ∧
    g.message = ": ".intercalate (texts.reverse.drop i ++ [e.message])
  /-- The innermost of them is the cause. -/
  last : texts ≠ [] → f.sources.getLast? = some e

theorem layered_under (he : e.IsCause) (texts : List String) : Layered e texts (e.under texts) where
  kind := kind_under he texts
  retryable := by rw [isRetryable, isRetryable, kind_under he]
  root := root_under he texts
  message := message_under e texts
  count := by rw [sources_under he, List.length_reverse, List.length_map, List.length_range]
  source i hpos hi := by
    refine ⟨_, getElem?_sources_under he hpos hi, ?_⟩
    rw [message_under, List.drop_reverse]
  last hne := by
    have hlength : 1 ≤ texts.length := List.length_pos_iff.2 hne
    have hlast := getElem?_sources_under he hlength (Nat.le_refl _)
    rw [Nat.sub_self, List.take_zero] at hlast
    rw [List.getLast?_eq_getElem?, sources_under he, List.length_reverse, List.length_map,
      List.length_range, ← sources_under he]
    exact hlast

/-! ## Calls that failed -/

/-- What stands behind an index: the other ones, each behind a comma, and a bracket. -/
def behindIndex (indices : List Nat) : List Char :=
  indices.flatMap (fun i => ',' :: ' ' :: Nat.toDigits 10 i) ++ [']']

theorem intercalate_cons_eq (i : Nat) (indices : List Nat) :
    [',', ' '].intercalate ((i :: indices).map (Nat.toDigits 10)) ++ [']'] =
      Nat.toDigits 10 i ++ behindIndex indices := by
  induction indices generalizing i with
  | nil => simp [behindIndex]
  | cons j indices ih =>
    rw [List.map_cons, List.map_cons, List.intercalate_cons_cons, ← List.map_cons,
      List.append_assoc, List.append_assoc, ih]
    simp [behindIndex]

theorem head?_behindIndex (indices : List Nat) :
    ∀ c ∈ (behindIndex indices).head?, c.isDigit = false := by
  cases indices <;> simp [behindIndex]

theorem behindIndex_inj {indices indices' : List Nat}
    (h : behindIndex indices = behindIndex indices') : indices = indices' := by
  induction indices generalizing indices' with
  | nil =>
    cases indices' with
    | nil => rfl
    | cons j indices' => simp [behindIndex] at h
  | cons i indices ih =>
    cases indices' with
    | nil => simp [behindIndex] at h
    | cons j indices' =>
      have hdigits : Nat.toDigits 10 i ++ behindIndex indices =
          Nat.toDigits 10 j ++ behindIndex indices' := by
        simpa [behindIndex] using h
      obtain ⟨rfl, hrest⟩ := Decimal.toDigits_append_inj (head?_behindIndex indices)
        (head?_behindIndex indices') hdigits
      rw [ih hrest]

theorem message_callsFailed (indices : List Nat) (total : Nat) :
    (callsFailed indices total).message =
      toString indices.length ++ " of " ++ toString total ++ " calls failed at indices [" ++
        ", ".intercalate (indices.map toString) ++ "]" := by
  have hmessage : (callsFailed indices total).message =
      toString indices.length ++ " of " ++ toString total ++ " calls failed at indices " ++
        ("[" ++ ", ".intercalate (indices.map toString) ++ "]") := rfl
  rw [hmessage]
  simp only [String.append_assoc]
  rfl

theorem toList_message_callsFailed (indices : List Nat) (total : Nat) :
    (callsFailed indices total).message.toList =
      Nat.toDigits 10 indices.length ++ (" of ".toList ++ (Nat.toDigits 10 total ++
        (" calls failed at indices [".toList ++
          ([',', ' '].intercalate (indices.map (Nat.toDigits 10)) ++ [']'])))) := by
  simp only [message_callsFailed, String.toList_append, String.toList_intercalate, List.map_map,
    List.append_assoc, Function.comp_def, Nat.toString_eq_repr, Nat.toList_repr]
  rfl

/-- The text tells which calls failed, and out of how many. -/
theorem eq_of_message_callsFailed {indices indices' : List Nat} {total total' : Nat}
    (h : (callsFailed indices total).message = (callsFailed indices' total').message) :
    indices = indices' ∧ total = total' := by
  have hof : ∀ rest, ∀ c ∈ (" of ".toList ++ rest).head?, c.isDigit = false := by
    rintro rest _ ⟨⟩
    decide
  have hcalls : ∀ rest, ∀ c ∈ (" calls failed at indices [".toList ++ rest).head?,
      c.isDigit = false := by
    rintro rest _ ⟨⟩
    decide
  have hlists := congrArg String.toList h
  rw [toList_message_callsFailed, toList_message_callsFailed] at hlists
  obtain ⟨hlength, hlists⟩ := Decimal.toDigits_append_inj (hof _) (hof _) hlists
  obtain ⟨htotal, hlists⟩ := Decimal.toDigits_append_inj (hcalls _) (hcalls _)
    (List.append_cancel_left hlists)
  have hindices := List.append_cancel_left hlists
  refine ⟨?_, htotal⟩
  cases indices with
  | nil => exact (List.length_eq_zero_iff.1 hlength.symm).symm
  | cons i indices =>
    cases indices' with
    | nil => cases hlength
    | cons j indices' =>
      rw [intercalate_cons_eq, intercalate_cons_eq] at hindices
      obtain ⟨rfl, hrest⟩ := Decimal.toDigits_append_inj (head?_behindIndex indices)
        (head?_behindIndex indices') hindices
      rw [behindIndex_inj hrest]

/-- The text counts the indices, gives the total, and lists the indices in order. It is the text of
no other failure of calls. -/
structure ListsCalls (shown : String) (indices : List Nat) (total : Nat) : Prop where
  text : shown = toString indices.length ++ " of " ++ toString total ++
    " calls failed at indices [" ++ ", ".intercalate (indices.map toString) ++ "]"
  only : ∀ indices' total', (callsFailed indices' total').message = shown →
    indices' = indices ∧ total' = total

theorem listsCalls_message (indices : List Nat) (total : Nat) :
    ListsCalls (callsFailed indices total).message indices total where
  text := message_callsFailed indices total
  only _ _ h := eq_of_message_callsFailed h

/-- **Contexts are transparent.** Of a fault under contexts, whether they were put in front of the
fault itself or of a result that has it, the class and the cause are those of the fault alone. The
text has theirs in front, the last one first. There are as many faults inside it as there are
contexts, each without one more of the outermost, and the last of them is the cause. The text of a
failure of calls says which calls failed. A result without a fault gets no context. -/
theorem layers_transparent (he : e.IsCause) (texts : List String) :
    Layered e texts (e.under texts) ∧
    (∀ α : Type, withContexts texts (.error e : Except Fault α) = .error (e.under texts)) ∧
    (∀ (α : Type) (a : α), withContexts texts (.ok a) = .ok a) ∧
    ∀ indices total, ListsCalls (callsFailed indices total).message indices total :=
  ⟨layered_under he texts, fun _ => withContexts_error texts e, fun _ => withContexts_ok texts,
    listsCalls_message⟩

/-- Two of ten calls failed in the second batch of a round. -/
theorem layers_transparent_secondBatch :
    let f := (callsFailed [2, 5] 10).under ["batch 1 [10, 20)", "node details"]
    f.kind = .callFailure ∧ f.root = callsFailed [2, 5] 10 ∧ f.sources.length = 2 ∧
      f.message = "node details: batch 1 [10, 20): 2 of 10 calls failed at indices [2, 5]" ∧
      ∃ g, f.sources[0]? = some g ∧
        g.message = "batch 1 [10, 20): 2 of 10 calls failed at indices [2, 5]" := by
  have hcause : (callsFailed [2, 5] 10).IsCause := nofun
  obtain ⟨hlayered, -⟩ := layers_transparent hcause ["batch 1 [10, 20)", "node details"]
  obtain ⟨g, hg, htext⟩ := hlayered.source 1 (by decide) (by decide)
  refine ⟨hlayered.kind, hlayered.root, hlayered.count, hlayered.message.trans ?_, g, hg,
    htext.trans ?_⟩
  · decide +kernel
  · decide +kernel

end Fault

end StakingSnapshot
