import Mathlib.Data.List.DropRight
import Telemetry.Proofs.Reporting.Segments

/-!
# Every latest duration is told once

Beyond its window a name keeps nothing but the place for its latest duration. What is in there
depends on the calls and on when the latest durations were taken, and not on the reports in between
(`latest_of`): a call puts its duration in the place of the one before, and all places are emptied
when they are read.

So in a run without interruptions a name is told just if it was called since the latest durations
were last taken. Its duration is that of the last call, unless this is not a number
(`told_once`).
-/

namespace Telemetry.Segments

variable {α : Type}

/-! ## Requests -/

/-- Whether the latest durations are taken. -/
def Request.isTake : Request α → Bool
  | .takeLatest => true
  | .record _ _ _ _ | .begin _ _ _ | .finish _ _ | .report _ _ => false

/-- Whether the window is reported. -/
def Request.isReport : Request α → Bool
  | .report _ _ => true
  | .record _ _ _ _ | .begin _ _ _ | .finish _ _ | .takeLatest => false

/-- The requests that came after the latest durations were last taken. -/
def sinceTaken (requests : List (Request α)) : List (Request α) :=
  requests.rtakeWhile fun request => !request.isTake

/-- The duration of the last call for a segment. -/
def lastCall? (name : String) (requests : List (Request α)) : Option α :=
  ((requests.filterMap Request.call?).filter fun call => call.1 = name).getLast?.map Prod.snd

/-- The duration of the last call for a segment, if it came after the latest durations were last
taken. -/
def untold? (name : String) (requests : List (Request α)) : Option α :=
  lastCall? name (sinceTaken requests)

theorem untold?_concat_take (name : String) (requests : List (Request α)) :
    untold? name (requests ++ [.takeLatest]) = none := by
  rw [untold?, sinceTaken, List.rtakeWhile_concat]
  rfl

theorem untold?_concat {request : Request α} (hrequest : request.isTake = false) (name : String)
    (requests : List (Request α)) :
    untold? name (requests ++ [request])
      = (request.call?.bind fun call => if call.1 = name then some call.2 else none).or
          (untold? name requests) := by
  rw [untold?, sinceTaken, List.rtakeWhile_concat, hrequest, Bool.not_false, if_pos rfl, lastCall?,
    List.filterMap_append, List.filter_append, List.getLast?_append]
  cases hcall : request.call? with
  | none =>
    rw [List.filterMap_cons_none hcall]
    rfl
  | some call =>
    rw [List.filterMap_cons_some hcall, List.filterMap_nil, Option.bind_some]
    by_cases hname : call.1 = name
    · simp only [List.filter_cons, hname, decide_true, if_true]
      rfl
    · simp only [List.filter_cons, hname, decide_false, if_false]
      rfl

/-- A segment without a name has no duration to be told. -/
theorem name_ne_empty_of_untold? {name : String} {requests : List (Request α)} {duration : α}
    (h : untold? name requests = some duration) : name ≠ "" := by
  obtain ⟨call, hlast, -⟩ := Option.map_eq_some_iff.mp h
  obtain ⟨hmem, hname⟩ := List.mem_filter.mp (List.mem_of_getLast? hlast)
  obtain ⟨request, -, hcall⟩ := List.mem_filterMap.mp hmem
  rw [← of_decide_eq_true hname]
  exact History.name_ne_empty_of_call? hcall

/-! ## Places -/

/-- What a request does to the places for the latest durations. -/
def Request.store (places : List (String × Option α)) : Request α → List (String × Option α)
  | .record _ name duration _ =>
    if name.isEmpty then places else Sorted.put Prod.fst (name, some duration) places
  | .takeLatest => places.map fun place => (place.1, none)
  | .begin _ _ _ | .finish _ _ | .report _ _ => places

/-- Reports leave all places as they are. -/
theorem foldl_store_filter (requests : List (Request α)) (places : List (String × Option α)) :
    (requests.filter fun request => !request.isReport).foldl Request.store places
      = requests.foldl Request.store places := by
  rw [List.foldl_filter]
  congr 1
  funext places request
  cases request <;> rfl

/-- The duration that is in the place of a name. -/
def held? (name : String) (places : List (String × Option α)) : Option α :=
  (Sorted.find? Prod.fst name places).bind Prod.snd

theorem ascending_store {places : List (String × Option α)}
    (h : Sorted.Ascending Prod.fst places) (request : Request α) :
    Sorted.Ascending Prod.fst (request.store places) := by
  cases request with
  | record o name duration slot =>
    rw [Request.store]
    split
    · exact h
    · exact Sorted.ascending_amend (faithful_remember name duration) h
  | takeLatest => exact List.pairwise_map.mpr h
  | begin name duration slot => exact h
  | finish index slot => exact h
  | report o moment => exact h

theorem held?_put {places : List (String × Option α)} (h : Sorted.Ascending Prod.fst places)
    (called : String) (duration : α) (name : String) :
    held? name (Sorted.put Prod.fst (called, some duration) places)
      = (if called = name then some duration else none).or (held? name places) := by
  have hfaithful := faithful_remember called duration
  by_cases hname : called = name
  · subst hname
    have hfind := Sorted.find?_amend_self hfaithful h
    rw [if_pos rfl, held?, Sorted.put, hfind]
    rfl
  · rw [if_neg hname, held?, Sorted.put, Sorted.find?_amend_of_ne hfaithful hname]
    rfl

theorem held?_emptied (name : String) (places : List (String × Option α)) :
    held? name (places.map fun place => (place.1, (none : Option α))) = none := by
  have hname : ∀ place : String × Option α, ((place.1, none) : String × Option α).1 = place.1 :=
    fun _ => rfl
  rw [held?, Sorted.find?_map hname]
  cases Sorted.find? Prod.fst name places <;> rfl

/-- A place holds the duration of the last call for its name, unless that has been told. -/
theorem held?_eq_untold? (requests : List (Request α))
    (whole : ∀ request ∈ requests, ¬ request.isBegin) (name : String) :
    Sorted.Ascending Prod.fst (requests.foldl Request.store []) ∧
      held? name (requests.foldl Request.store []) = untold? name requests := by
  induction requests using List.reverseRecOn with
  | nil => exact ⟨.nil, rfl⟩
  | append_singleton requests request ih =>
    obtain ⟨hbefore, hlast⟩ := List.forall_mem_append.mp whole
    obtain ⟨hplaces, hheld⟩ := ih hbefore
    rw [List.foldl_append]
    refine ⟨ascending_store hplaces request, ?_⟩
    rw [List.foldl_cons, List.foldl_nil]
    cases request with
    | record o called duration slot =>
      rw [untold?_concat rfl, ← hheld, Request.store, Request.call?]
      split
      · rfl
      · exact held?_put hplaces called duration name
    | takeLatest =>
      rw [untold?_concat_take]
      exact held?_emptied name _
    | begin called duration slot => exact absurd rfl (hlast _ List.mem_cons_self)
    | finish index slot =>
      rw [untold?_concat rfl]
      exact hheld
    | report o moment =>
      rw [untold?_concat rfl]
      exact hheld

section Telling

variable [Quantity α]

/-- Without interruptions the places are what the requests have made of them, one after the other. -/
theorem latest_of (requests : List (Request α)) (whole : ∀ request ∈ requests, ¬ request.isBegin) :
    (History.of requests).segments.latest = requests.foldl Request.store [] := by
  induction requests using List.reverseRecOn with
  | nil => rfl
  | append_singleton requests request ih =>
    obtain ⟨hbefore, hlast⟩ := List.forall_mem_append.mp whole
    have hnone := ((History.kept_of requests).ordered hbefore).1
    have hlatest := ih hbefore
    rw [History.of, List.foldl_append, List.foldl_append, ← hlatest]
    change ((History.of requests).next request).segments.latest = request.store _
    cases request with
    | record o name duration slot =>
      rw [History.next, Segments.record, Request.store]
      by_cases hname : name.isEmpty
      · rw [if_pos hname, if_pos hname]
        simp only [History.countUnless, hname, if_true]
      · rw [if_neg hname, if_neg hname, add_eq]
        simp only [History.countUnless, hname]
        rfl
    | begin name duration slot => exact absurd rfl (hlast _ List.mem_cons_self)
    | finish index slot =>
      rw [History.next, hnone]
      rfl
    | report o moment => rfl
    | takeLatest => rfl

/-- What is told of a name with its place. -/
def told? (place : String × Option α) : Option (String × α) :=
  (place.2.filter Quantity.isNumber).map fun duration => (place.1, duration)

theorem told?_eq_some_iff {place : String × Option α} {name : String} {duration : α} :
    told? place = some (name, duration) ↔
      place = (name, some duration) ∧ Quantity.isNumber duration := by
  obtain ⟨called, latest⟩ := place
  rw [told?, Option.map_eq_some_iff]
  constructor
  · rintro ⟨_, hfilter, heq⟩
    obtain ⟨rfl, rfl⟩ := Prod.mk.inj heq
    obtain ⟨hlatest, hnumber⟩ := Option.filter_eq_some_iff.mp hfilter
    exact ⟨Prod.ext rfl hlatest, hnumber⟩
  · rintro ⟨heq, hnumber⟩
    obtain ⟨rfl, rfl⟩ := Prod.mk.inj heq
    exact ⟨duration, Option.filter_eq_some_iff.mpr ⟨rfl, hnumber⟩, rfl⟩

theorem takeLatest_fst (s : Segments α) : s.takeLatest.1 = s.latest.filterMap told? := by
  refine List.filterMap_congr fun ⟨name, latest⟩ _ => ?_
  cases latest with
  | none => rfl
  | some duration =>
    by_cases hnumber : Quantity.isNumber duration
    · simp only [told?, Option.filter_some, hnumber, if_true, Option.map_some]
    · simp only [told?, Option.filter_some, hnumber]
      rfl

/-- What is told are the durations in their places that are numbers. -/
theorem mem_takeLatest_iff {s : Segments α} (h : Sorted.Ascending Prod.fst s.latest)
    (name : String) (duration : α) :
    (name, duration) ∈ s.takeLatest.1 ↔
      held? name s.latest = some duration ∧ Quantity.isNumber duration := by
  rw [takeLatest_fst, List.mem_filterMap]
  constructor
  · rintro ⟨place, hmem, htold⟩
    obtain ⟨rfl, hnumber⟩ := told?_eq_some_iff.mp htold
    exact ⟨congrArg (Option.bind · Prod.snd) (Sorted.find?_of_mem h hmem), hnumber⟩
  · rintro ⟨hheld, hnumber⟩
    obtain ⟨⟨called, latest⟩, hfind, hlatest⟩ := Option.bind_eq_some_iff.mp hheld
    obtain ⟨hmem, rfl⟩ := Sorted.mem_of_find?_eq_some hfind
    exact ⟨(called, latest), hmem, told?_eq_some_iff.mpr ⟨Prod.ext rfl hlatest, hnumber⟩⟩

/-- Names are told in their order. -/
theorem ascending_takeLatest {s : Segments α} (h : Sorted.Ascending Prod.fst s.latest) :
    Sorted.Ascending Prod.fst s.takeLatest.1 := by
  rw [takeLatest_fst, Sorted.Ascending, List.pairwise_filterMap]
  refine h.imp fun {place place'} hlt told htold told' htold' => ?_
  obtain ⟨rfl, -⟩ := told?_eq_some_iff.mp htold
  obtain ⟨rfl, -⟩ := told?_eq_some_iff.mp htold'
  exact hlt

/-- Once taken, nothing is left to be told. -/
theorem takeLatest_takeLatest (s : Segments α) : s.takeLatest.2.takeLatest.1 = [] := by
  rw [takeLatest_fst, List.filterMap_eq_nil_iff]
  intro place hmem
  obtain ⟨old, -, rfl⟩ := List.mem_map.mp hmem
  rfl

/-- In a run without interruptions the latest durations tell each name that was called since they
were last taken, with the duration of the last call for it, if that is a number. When they are taken
twice in a row nothing is told the second time, and no report makes a difference. -/
theorem told_once (requests : List (Request α)) (whole : ∀ request ∈ requests, ¬ request.isBegin) :
    let told := (History.of requests).segments.takeLatest.1
    (∀ name duration, (name, duration) ∈ told ↔
      name ≠ "" ∧ untold? name requests = some duration ∧ Quantity.isNumber duration) ∧
    (told.map Prod.fst).Nodup ∧
    (History.of (requests ++ [.takeLatest])).segments.takeLatest.1 = [] ∧
    (History.of (requests.filter fun request => !request.isReport)).segments.takeLatest.1 = told := by
  intro told
  have hlatest := latest_of requests whole
  have hascending := (History.kept_of requests).agrees.latest
  refine ⟨fun name duration => ?_, Sorted.nodup_names (ascending_takeLatest hascending), ?_, ?_⟩
  · rw [mem_takeLatest_iff hascending, hlatest, (held?_eq_untold? requests whole name).2]
    exact ⟨fun h => ⟨name_ne_empty_of_untold? h.1, h⟩, And.right⟩
  · rw [History.of, List.foldl_append]
    exact takeLatest_takeLatest _
  · have hquiet : ∀ request ∈ requests.filter fun request => !request.isReport,
        ¬ request.isBegin := fun request hmem => whole request (List.mem_filter.mp hmem).1
    have hlatest' := (latest_of _ hquiet).trans (foldl_store_filter requests [])
    rw [takeLatest_fst, hlatest', ← hlatest, ← takeLatest_fst]

end Telling

/-- An outlet that nothing has come from. -/
def quietOutlet : Outlet := { config := {}, delivery := Delivery.create {} 600 false }

/-- A page is loaded before and after its duration is taken, with a report in between. Then a call
takes no number of milliseconds. -/
def mixedRun : List (Request Float) :=
  [.record quietOutlet "page" 5 0, .takeLatest, .record quietOutlet "page" 7 0,
    .report quietOutlet ⟨⟨0⟩, fun _ => 0⟩, .record quietOutlet "call" (0 / 0) 0]

theorem told_once_mixed :
    (∀ request ∈ mixedRun, ¬ request.isBegin) ∧
      ("page", 7) ∈ (History.of mixedRun).segments.takeLatest.1 ∧
      ∀ duration, ("call", duration) ∉ (History.of mixedRun).segments.takeLatest.1 := by
  have whole : ∀ request ∈ mixedRun, ¬ request.isBegin := by
    intro request hmem
    fin_cases hmem <;> decide
  obtain ⟨htold, -⟩ := told_once mixedRun whole
  refine ⟨whole, (htold "page" 7).mpr ⟨by decide, rfl, by decide +kernel⟩, fun duration hmem => ?_⟩
  obtain ⟨-, huntold, hnumber⟩ := (htold "call" duration).mp hmem
  obtain rfl : (0 / 0 : Float) = duration := Option.some.inj huntold
  revert hnumber
  decide +kernel

end Telemetry.Segments
