import KeyCapsule.Fault
import Mathlib.Data.List.Perm.Basic
import Mathlib.Logic.Relation

/-! Pools of requests. Any request that waits may take the next draw, and behind one that failed those that
wait may be dropped; what a pool comes to is told up to its order by the draws. -/
namespace KeyCapsule.Conformance
variable {α δ : Type}

inductive Request (α : Type)
  | waiting
  | done (r : Except Fault α)
  | dropped

namespace Request

def isOpen : Request α → Bool
  | done _ => false
  | _ => true

def result? : Request α → Option (Except Fault α)
  | done r => some r
  | _ => none

def results (requests : List (Request α)) : List (Except Fault α) := requests.filterMap result?

private theorem results_done (r : Except Fault α) (before after : List (Request α)) :
    results (before ++ .done r :: after) = results before ++ r :: results after := by
  rw [results, List.filterMap_append]
  rfl

private theorem results_open {x : Request α} (hx : x.isOpen = true) (before after : List (Request α)) :
    results (before ++ x :: after) = results before ++ results after := by
  have hnone : x.result? = none := by
    cases x with
    | done r => cases hx
    | _ => rfl
  rw [results, List.filterMap_append, List.filterMap_cons_none hnone]
  rfl

private theorem mem_results {r : Except Fault α} {requests : List (Request α)} (h : .done r ∈ requests) :
    r ∈ results requests :=
  List.mem_filterMap.2 ⟨_, h, rfl⟩

end Request

structure Pool (δ α : Type) where
  ahead : List δ
  requests : List (Request α)

namespace Pool

def begun (outcomes : List δ) : Pool δ α := ⟨outcomes, List.replicate outcomes.length .waiting⟩

def results (p : Pool δ α) : List (Except Fault α) := Request.results p.requests

def Finished (p : Pool δ α) : Prop := .waiting ∉ p.requests

/-- One step of the pool. Any request that waits may take the next draw. Results are looked at in the order of
the requests, and behind the first that failed those that wait may be dropped. -/
inductive Step (answer : δ → Except Fault α) : Pool δ α → Pool δ α → Prop
  | draw (outcome : δ) (ahead : List δ) (before after : List (Request α)) :
    Step answer ⟨outcome :: ahead, before ++ .waiting :: after⟩
      ⟨ahead, before ++ .done (answer outcome) :: after⟩
  | drop (ahead : List δ) (passed : List α) (e : Fault) (between after : List (Request α)) :
    Step answer ⟨ahead, (passed.map (.done ∘ .ok) ++ .done (.error e) :: between) ++ .waiting :: after⟩
      ⟨ahead, (passed.map (.done ∘ .ok) ++ .done (.error e) :: between) ++ .dropped :: after⟩

def Run (answer : δ → Except Fault α) : Pool δ α → Pool δ α → Prop := Relation.ReflTransGen (Step answer)

/-- What holds of a pool as long as it runs: the draws that were taken and those to come are those there were,
each open request leaves one of them, and no request is dropped unless one has failed. -/
structure Kept (answer : δ → Except Fault α) (outcomes : List δ) (p : Pool δ α) : Prop where
  taken : (p.results ++ p.ahead.map answer).Perm (outcomes.map answer)
  left : p.requests.countP Request.isOpen = p.ahead.length
  failed : .dropped ∈ p.requests → ∃ e, .error e ∈ p.results

variable {answer : δ → Except Fault α} {outcomes : List δ} {p q : Pool δ α}

private theorem kept_begun (answer : δ → Except Fault α) (outcomes : List δ) :
    (begun outcomes).Kept answer outcomes := by
  have hnone : (begun outcomes : Pool δ α).results = [] := by
    simp [results, Request.results, begun, Request.result?]
  refine ⟨?_, ?_, fun h => ?_⟩
  · rw [hnone]
    exact .refl _
  · simp [begun, List.countP_replicate, Request.isOpen]
  · cases List.eq_of_mem_replicate h

theorem Step.kept (h : Step answer p q) (hp : p.Kept answer outcomes) : q.Kept answer outcomes := by
  obtain ⟨htaken, hleft, hfailed⟩ := hp
  cases h with
  | draw outcome ahead before after =>
    simp only [results] at htaken hfailed
    rw [Request.results_open rfl] at htaken hfailed
    rw [List.countP_append, List.countP_cons_of_pos rfl, List.length_cons] at hleft
    refine ⟨.trans ?_ htaken, ?_, fun hd => ?_⟩
    · simp only [results, Request.results_done, List.map_cons, List.append_assoc, List.cons_append]
      exact .append_left _ List.perm_middle.symm
    · rw [List.countP_append, List.countP_cons_of_neg (by simp [Request.isOpen])]
      exact Nat.succ.inj hleft
    · have hbefore : .dropped ∈ before ++ .waiting :: after := by simpa using hd
      obtain ⟨e, he⟩ := hfailed hbefore
      simp only [results, Request.results_done]
      exact ⟨e, List.perm_middle.symm.subset (List.mem_cons_of_mem _ he)⟩
  | drop ahead passed e between after =>
    simp only [results] at htaken
    rw [Request.results_open rfl, ← Request.results_open (x := .dropped) rfl] at htaken
    rw [List.countP_append, List.countP_cons_of_pos rfl] at hleft
    refine ⟨htaken, ?_, fun _ => ⟨e, Request.mem_results ?_⟩⟩
    · rw [List.countP_append, List.countP_cons_of_pos rfl]
      exact hleft
    · simp

theorem Run.kept (h : Run answer (begun outcomes) p) : p.Kept answer outcomes := by
  induction h with
  | refl => exact kept_begun answer outcomes
  | tail _ hstep ih => exact hstep.kept ih

/-- When no request waits any more, every draw was taken or a request failed. -/
theorem Kept.finished (h : p.Kept answer outcomes) (hf : p.Finished) :
    p.results.Perm (outcomes.map answer) ∨
      (∃ e, .error e ∈ p.results) ∧ ∃ e, .error e ∈ outcomes.map answer := by
  by_cases hd : .dropped ∈ p.requests
  · obtain ⟨e, he⟩ := h.failed hd
    exact .inr ⟨⟨e, he⟩, e, h.taken.subset (List.mem_append_left _ he)⟩
  · left
    have hnone : p.requests.countP Request.isOpen = 0 := by
      refine List.countP_eq_zero.2 fun x hx ho => ?_
      cases x with
      | waiting => exact hf hx
      | dropped => exact hd hx
      | done r => cases ho
    have hahead : p.ahead = [] := List.length_eq_zero_iff.1 (h.left.symm.trans hnone)
    have htaken := h.taken
    rwa [hahead, List.map_nil, List.append_nil] at htaken

/-- Requests that are to come to these results, those among them that have taken their draw being marked. -/
def towards (answer : δ → Except Fault α) (goals : List (δ × Bool)) : List (Request α) :=
  goals.map fun goal => if goal.2 then .done (answer goal.1) else .waiting

/-- The draws that are still to come may go to the open requests in any order. -/
private theorem run_towards (answer : δ → Except Fault α) (ahead : List δ) (goals : List (δ × Bool))
    (h : ahead.Perm ((goals.filter fun goal => !goal.2).map Prod.fst)) :
    Run answer ⟨ahead, towards answer goals⟩ ⟨[], goals.map fun goal => .done (answer goal.1)⟩ := by
  induction ahead generalizing goals with
  | nil =>
    have hall : towards answer goals = goals.map fun goal => .done (answer goal.1) := by
      have hnil := List.map_eq_nil_iff.1 (List.nil_perm.1 h)
      refine List.map_congr_left fun goal hmem => ?_
      have := List.filter_eq_nil_iff.1 hnil goal hmem
      simp_all
    rw [hall]
    exact .refl
  | cons outcome ahead ih =>
    have hmem : outcome ∈ (goals.filter fun goal => !goal.2).map Prod.fst := h.subset List.mem_cons_self
    obtain ⟨⟨o, taken⟩, hgoal, rfl⟩ := List.mem_map.1 hmem
    obtain ⟨hgoal, hopen⟩ := List.mem_filter.1 hgoal
    simp only [Bool.not_eq_true'] at hopen
    subst hopen
    obtain ⟨before, after, rfl⟩ := List.append_of_mem hgoal
    have hwaits : towards answer (before ++ (o, false) :: after) =
        towards answer before ++ .waiting :: towards answer after := by simp [towards]
    have htakes : towards answer (before ++ (o, true) :: after) =
        towards answer before ++ .done (answer o) :: towards answer after := by simp [towards]
    have hrest := ih (before ++ (o, true) :: after) ?_
    · rw [htakes] at hrest
      rw [hwaits]
      simp only [List.map_append, List.map_cons] at hrest ⊢
      exact .head (.draw o ahead _ _) hrest
    · simp only [List.filter_append, List.filter_cons, List.map_append, List.map_cons, Bool.not_false,
        Bool.not_true, Bool.false_eq_true, if_true, if_false] at h ⊢
      exact (h.trans List.perm_middle).cons_inv

theorem run_of_perm (answer : δ → Except Fault α) {order : List δ} (h : outcomes.Perm order) :
    Run answer (begun outcomes) ⟨[], order.map fun outcome => .done (answer outcome)⟩ := by
  have hwaits : towards answer (order.map fun outcome => (outcome, false)) =
      List.replicate outcomes.length .waiting := by
    rw [towards, List.map_map, h.length_eq]
    exact List.map_const' ..
  have hopen : (order.map fun outcome => (outcome, false)).filter (fun goal => !goal.2) =
      order.map fun outcome => (outcome, false) := List.filter_eq_self.2 (by simp)
  have hrun := run_towards answer outcomes (order.map fun outcome => (outcome, false)) (by
    rw [hopen, List.map_map]
    simpa [Function.comp_def] using h)
  rwa [hwaits, List.map_map] at hrun

theorem finished_order (answer : δ → Except Fault α) (order : List δ) :
    (⟨[], order.map fun outcome => .done (answer outcome)⟩ : Pool δ α).Finished := by
  simp [Finished]

theorem results_order (answer : δ → Except Fault α) (order : List δ) :
    (⟨[], order.map fun outcome => .done (answer outcome)⟩ : Pool δ α).results = order.map answer := by
  rw [results, Request.results, List.filterMap_map]
  exact congrFun (List.filterMap_eq_map ..) order

end Pool

end KeyCapsule.Conformance
