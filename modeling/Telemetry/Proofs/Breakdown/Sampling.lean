import Mathlib.Data.List.Induction
import Telemetry.Proofs.Breakdown.Evaluation

/-!
# Reservoirs as samples

A node is called again and again: values are recorded with it, and now and then it is evaluated.
Whatever slots are drawn, its reservoir holds a sample of the values recorded since it was last
evaluated, with as many of them as there is room for and none of them twice (`Reservoir.Samples`).
A value that finds no slot is still counted.

`Store.sampled_of_calls` says so of any node of any store. The node may have children and be shared: an
evaluation changes its entry once, even where it meets the node again below itself
(`cell?_map_self`).
-/

namespace Telemetry

variable {α : Type}

/-! ## Offers -/

namespace Reservoir

/-- A reservoir holds a sample of some values. -/
structure Samples (r : Reservoir α) (values : List α) : Prop where
  offered : r.offered = values.length
  size : r.size = min capacity values.length
  /-- no value is held more often than it was offered -/
  held : r.values.toList.Subperm values
  /-- while there is room for all of them, all are held in their order -/
  whole : values.length ≤ capacity → r.values.toList = values

theorem samples_empty : (empty : Reservoir α).Samples [] where
  offered := rfl
  size := rfl
  held := List.Subperm.refl []
  whole _ := rfl

/-- A value that takes the place of another drives that one out. -/
theorem set_subperm (values : List α) (slot : Nat) (value : α) :
    (values.set slot value).Subperm (value :: values) := by
  induction values generalizing slot with
  | nil => exact List.nil_subperm
  | cons first rest ih =>
    cases slot with
    | zero => exact ((List.sublist_cons_self first rest).cons_cons value).subperm
    | succ slot =>
      have hfirst := (List.subperm_cons first).mpr (ih slot)
      exact hfirst.trans (List.Perm.swap value first rest).subperm

/-- One more value is offered. -/
theorem Samples.offer {r : Reservoir α} {values : List α} (h : r.Samples values) (value : α)
    (slot : Nat) : (r.offer value slot).Samples (values ++ [value]) := by
  have hlength : (values ++ [value]).length = values.length + 1 := List.length_append
  have hsize := h.size
  by_cases hroom : r.size < capacity
  · have hlt : values.length < capacity := by omega
    have hall := h.whole (Nat.le_of_lt hlt)
    have hvalues : (r.offer value slot).values.toList = values ++ [value] := by
      rw [Reservoir.offer, if_pos hroom, Array.toList_push, hall]
    refine ⟨?_, ?_, ?_, fun _ => hvalues⟩
    · rw [offered_offer, h.offered, hlength]
    · rw [size_offer, if_pos hroom, hlength]
      omega
    · rw [hvalues]
  · have hfull : capacity ≤ values.length := by omega
    have hvalues : (r.offer value slot).values.toList = r.values.toList.set slot value := by
      rw [Reservoir.offer, if_neg hroom, Array.toList_setIfInBounds]
    refine ⟨?_, ?_, ?_, fun hle => ?_⟩
    · rw [offered_offer, h.offered, hlength]
    · rw [size_offer, if_neg hroom, hlength]
      omega
    · rw [hvalues]
      have hcons := (List.subperm_cons value).mpr h.held
      have hset := (set_subperm r.values.toList slot value).trans hcons
      exact hset.trans (List.perm_append_singleton value values).symm.subperm
    · rw [hlength] at hle
      omega

end Reservoir

/-! ## Calls -/

/-- What a node is called for. -/
inductive Call (α : Type) where
  /-- a value is recorded; the slot is the one drawn if there is no room -/
  | record (value : α) (slot : Nat)
  /-- the node is evaluated -/
  | evaluate

namespace Call

/-- The value that is recorded by a call. -/
def value? : Call α → Option α
  | record value _ => some value
  | evaluate => none

/-- The values that wait to be evaluated after one more call. -/
def next (values : List α) : Call α → List α
  | record value _ => values ++ [value]
  | evaluate => []

/-- The values recorded since the last evaluation, in the order in which they were recorded. -/
def waiting (calls : List (Call α)) : List α := calls.foldl next []

/-- What waits depends on the last call and on what has waited before it. -/
theorem waiting_concat (calls : List (Call α)) (call : Call α) :
    waiting (calls ++ [call]) = call.next (waiting calls) :=
  List.foldl_append

/-- How many values were recorded, evaluated or not. -/
def recorded (calls : List (Call α)) : Nat := (calls.filterMap value?).length

theorem recorded_concat_record (calls : List (Call α)) (value : α) (slot : Nat) :
    recorded (calls ++ [.record value slot]) = recorded calls + 1 := by
  rw [recorded, List.filterMap_append, List.length_append]
  rfl

theorem recorded_concat_evaluate (calls : List (Call α)) :
    recorded (calls ++ [.evaluate]) = recorded calls := by
  rw [recorded, List.filterMap_append, List.length_append]
  rfl

end Call

namespace Entry

variable [Quantity α]

/-- What an entry is after a call. -/
def called (entry : Entry α) : Call α → Entry α
  | .record value slot => entry.observe value slot
  | .evaluate => entry.evaluate

/-- Evaluating counts nothing. -/
theorem sampleCount_evaluate (entry : Entry α) : entry.evaluate.sampleCount = entry.sampleCount := by
  rw [evaluate]
  split <;> rfl

/-- An evaluation empties the reservoir, or it was empty before. -/
theorem reservoir_evaluate {entry : Entry α} {values : List α}
    (h : entry.reservoir.Samples values) : entry.evaluate.reservoir = .empty := by
  cases hvalue : entry.reservoir.percentile? with
  | some value => rw [evaluate_of_percentile? hvalue]
  | none =>
    have hnone : entry.reservoir.size = 0 := by
      by_contra hsome
      have hpos := Reservoir.isSome_percentile? (Nat.pos_of_ne_zero hsome)
      rw [hvalue] at hpos
      cases hpos
    have hsampled : entry.Sampled := by
      rw [Sampled, h.size, h.offered]
    rw [evaluate_of_none hvalue]
    exact hsampled.eq_empty hnone

/-- What calls have made of an entry: the reservoir holds a sample of the values that wait to be
evaluated, and all that were recorded have been counted. -/
structure CalledFor (old : Entry α) (calls : List (Call α)) (new : Entry α) : Prop where
  reservoir : new.reservoir.Samples (Call.waiting calls)
  sampleCount : new.sampleCount = old.sampleCount + Int64.ofNat (Call.recorded calls)

omit [Quantity α] in
theorem calledFor_nil {entry : Entry α} (hempty : entry.reservoir = .empty) :
    CalledFor entry [] entry where
  reservoir := by
    rw [hempty]
    exact Reservoir.samples_empty
  sampleCount := (Int64.add_zero _).symm

/-- One call more keeps what the calls before it have made of an entry. -/
theorem CalledFor.called {old new : Entry α} {calls : List (Call α)} (h : CalledFor old calls new)
    (call : Call α) : CalledFor old (calls ++ [call]) (new.called call) := by
  cases call with
  | record value slot =>
    constructor
    · rw [Call.waiting_concat]
      exact h.reservoir.offer value slot
    · rw [Call.recorded_concat_record, Int64.ofNat_add, ← Int64.add_assoc, ← h.sampleCount]
      rfl
  | evaluate =>
    constructor
    · rw [Call.waiting_concat, Entry.called, reservoir_evaluate h.reservoir]
      exact Reservoir.samples_empty
    · rw [Call.recorded_concat_evaluate, ← h.sampleCount]
      exact sampleCount_evaluate new

end Entry

/-! ## Calls of a node in a store -/

namespace Store

section Altering

variable {f : Entry α → Entry α} {s s' s'' : Store α}

/-- Two partial passes make one, as a node that both have reached is as if it was reached once. -/
theorem Partly.trans (hidem : ∀ entry, f (f entry) = f entry) (h : Partly f s s')
    (h' : Partly f s' s'') : Partly f s s'' := by
  intro n
  rcases h' n with hsame | hchanged
  · rw [hsame]
    exact h n
  · refine .inr ?_
    rcases h n with hsame | hbefore
    · rw [hchanged, hsame]
    · rw [hchanged, hbefore, Option.map_map]
      congr 1
      funext cell
      rw [Function.comp, altered, altered, hidem]

/-- Altering one node is a partial pass. -/
theorem partly_put {h : Handle} {cell : Cell α} (hcell : s.cell? h = some cell) :
    Partly f s (s.put h (altered f cell)) := by
  intro n
  by_cases hn : n = h
  · refine .inr ?_
    rw [hn, cell?_put_self hcell, hcell, Option.map_some]
  · exact .inl (cell?_put_of_ne s _ hn)

/-- A walk changes no entry twice, as far as that can be told. -/
theorem partly_walk (hidem : ∀ entry, f (f entry) = f entry) (levels level : Nat) (h : Handle)
    (s : Store α) : Partly f s (walk (fun _ _ cell => altered f cell) levels level h s) := by
  refine walk_induction (Partly.refl f) (Partly.trans hidem) ?_ levels level h s
  intro s level h cell hcell
  exact partly_put hcell

/-- A pass changes the entry of the node that it starts from, also if there is no tree below it. -/
theorem cell?_map_self (hidem : ∀ entry, f (f entry) = f entry) {h : Handle} {cell : Cell α}
    (hcell : s.cell? h = some cell) : (s.map f h).cell? h = some (altered f cell) := by
  obtain ⟨levels, hlevels⟩ := Nat.exists_eq_add_of_lt (lt_size_of_cell? hcell)
  have hwalk : s.map f h = walk (fun _ _ cell => altered f cell) (h.index + levels + 1) 0 h s := by
    rw [← hlevels]
    rfl
  rw [hwalk, walk_succ_of_cell? hcell]
  -- once changed, the entry stays as it is, though the walk may come to it again
  have hrest : Partly f (s.put h (altered f cell))
      ((altered f cell).children.foldl (fun s link => walk (fun _ _ cell => altered f cell)
        (h.index + levels) 1 link.2 s) (s.put h (altered f cell))) := by
    refine List.foldlRecOn (motive := fun s' => Partly f (s.put h (altered f cell)) s') _ _
      (Partly.refl f _) ?_
    intro s' hs' link _
    exact hs'.trans hidem (partly_walk hidem _ _ _ _)
  have hself := cell?_put_self hcell (altered f cell)
  rcases hrest h with hsame | hchanged
  · exact hsame.trans hself
  · refine hchanged.trans ?_
    rw [hself, Option.map_some, altered, altered, hidem]

end Altering

variable [Quantity α]

/-- A call of a node as a step of the store. -/
def stepOf (h : Handle) : Call α → Step α
  | .record value slot => .observe h value slot
  | .evaluate => .evaluate h

/-- The store after calls of a node. -/
def afterCalls (s : Store α) (h : Handle) (calls : List (Call α)) : Store α :=
  calls.foldl (fun s call => (stepOf h call).apply s) s

/-- A call on a handle is a call on its entry. -/
theorem cell?_apply_stepOf {s : Store α} {h : Handle} {cell : Cell α}
    (hcell : s.cell? h = some cell) (call : Call α) :
    ((stepOf h call).apply s).cell? h = some { cell with entry := cell.entry.called call } := by
  cases call with
  | record value slot =>
    simp only [stepOf, Step.apply, modifyEntry]
    rw [cell?_modify_self, hcell]
    rfl
  | evaluate => exact cell?_map_self Entry.evaluate_evaluate hcell

/-- After any calls of a node, whatever slots were drawn, its reservoir holds a sample of the values
recorded since the last evaluation, and all values recorded have been counted. Before the first call
the node is new, or it has just been evaluated. -/
theorem sampled_of_calls {s : Store α} {h : Handle} {cell : Cell α} (hcell : s.cell? h = some cell)
    (hempty : cell.entry.reservoir = .empty) (calls : List (Call α)) :
    ∃ entry, (s.afterCalls h calls).cell? h = some { cell with entry } ∧
      entry.reservoir.size = min 1000 (Call.waiting calls).length ∧
      entry.reservoir.values.toList.Subperm (Call.waiting calls) ∧
      ((Call.waiting calls).length ≤ 1000 → entry.reservoir.values.toList = Call.waiting calls) ∧
      entry.sampleCount = cell.entry.sampleCount + Int64.ofNat (Call.recorded calls) := by
  obtain ⟨entry, hentry, hcalls⟩ : ∃ entry,
      (s.afterCalls h calls).cell? h = some { cell with entry } ∧
        Entry.CalledFor cell.entry calls entry := by
    induction calls using List.reverseRecOn with
    | nil => exact ⟨cell.entry, hcell, Entry.calledFor_nil hempty⟩
    | append_singleton calls call ih =>
      obtain ⟨entry, hentry, hcalls⟩ := ih
      refine ⟨entry.called call, ?_, hcalls.called call⟩
      rw [afterCalls, List.foldl_append]
      exact cell?_apply_stepOf hentry call
  exact ⟨entry, hentry, hcalls.reservoir.size, hcalls.reservoir.held, hcalls.reservoir.whole,
    hcalls.sampleCount⟩

/-- A page with a call below it that has counted as much as it can. -/
def countedOut : Store Float where
  cells := #[
    { entry := .fresh "page", children := [("call", ⟨1⟩)] },
    { entry := (Entry.fresh "call").increment 0 Int64.maxValue, children := [] }]

/-- Three values are recorded with the call, the first of which is evaluated. -/
def interrupted : List (Call Float) := [.record 3 7, .evaluate, .record 2 0, .record 1 0]

theorem sampled_of_calls_interrupted :
    ∃ entry, (countedOut.afterCalls ⟨1⟩ interrupted).cell? ⟨1⟩ = some { entry, children := [] } ∧
      entry.reservoir.values.toList = [2, 1] ∧ entry.sampleCount = Int64.minValue + 2 := by
  let call : Cell Float :=
    { entry := (Entry.fresh "call").increment 0 Int64.maxValue, children := [] }
  have hcell : countedOut.cell? ⟨1⟩ = some call := rfl
  have hempty : call.entry.reservoir = .empty := rfl
  obtain ⟨entry, hentry, -, -, hwhole, hcount⟩ := sampled_of_calls hcell hempty interrupted
  exact ⟨entry, hentry, hwhole (by decide), hcount.trans (by decide)⟩

end Store

end Telemetry
