import Mathlib
import Telemetry.Proofs.Breakdown.Growth
import Telemetry.Proofs.Quantity.Whole
import Telemetry.Proofs.Reporting.Queued
import Telemetry.Reporting.ErrorGroups

/-!
# Every error is reported once

A history follows the errors of an agent through a run of records and reports in any order, with any
groups and messages. It keeps the errors recorded since the last report, and what each report was
given and gave.

The invariant (`Agrees`) ties the window to that history: below its root there is a node for each
group recorded since the last report, and that node is what the messages of the group, one after the
other, make of a node that was never touched (`ofMessages`). Such a node has a child for each
distinct message, which was counted as often as the message occurred, and was itself never counted.
So one rollup gives it the number of its messages, and the new root adds that number to nothing
(`counts_breakdown`).

Counts wrap around at 64 bits, and sums of ones are exact only up to a limit. `Counts` says both of
a node at once, and is kept by everything that is added up.
-/

namespace Telemetry

variable {α : Type} [Quantity α]

/-! ## Nodes that count -/

/-- An entry counts so many things: that is its count of samples, and as long as whole numbers are
exact it is what was measured, too. -/
structure Entry.Counts (entry : Entry α) (n : Nat) : Prop where
  samples : entry.sampleCount = Int64.ofNat n
  measured : n < Binary64.wholeLimit → entry.measurement = Quantity.ofInt n

/-- A node of a picture counts so many things. -/
structure BreakdownRecord.Counts (record : BreakdownRecord α) (n : Nat) : Prop where
  samples : record.sampleCount = Int64.ofNat n
  measured : n < Binary64.wholeLimit → record.measurement = Quantity.ofInt n

theorem Tree.counts_toRecord {t : Tree α} {n : Nat} (h : t.entry.Counts n) :
    t.toRecord.Counts n :=
  ⟨(Tree.sampleCount_toRecord t).trans h.samples,
    fun hlt => (Tree.measurement_toRecord t).trans (h.measured hlt)⟩

namespace Entry

/-- An entry after so many errors were counted in it. -/
def tallied (name : String) : Nat → Entry α
  | 0 => fresh name
  | n + 1 => (tallied name n).increment (Quantity.ofInt 1) 1

@[simp] theorem name_tallied (name : String) (n : Nat) : (tallied name n : Entry α).name = name := by
  induction n with
  | zero => rfl
  | succ n ih => exact ih

variable [Quantity.Whole α]

theorem counts_fresh (name : String) : (fresh name : Entry α).Counts 0 :=
  ⟨rfl, fun _ => Quantity.Whole.ofInt_zero.symm⟩

/-- What is added to an entry is added to its number. -/
theorem Counts.increment {entry other : Entry α} {m n : Nat} (h : entry.Counts m)
    (h' : other.Counts n) :
    (entry.increment other.measurement other.sampleCount).Counts (m + n) where
  samples := by
    rw [Entry.increment, h.samples, h'.samples, Int64.ofNat_add]
  measured := by
    intro hlt
    have hm : m < Binary64.wholeLimit := Nat.lt_of_le_of_lt (Nat.le_add_right m n) hlt
    have hn : n < Binary64.wholeLimit := Nat.lt_of_le_of_lt (Nat.le_add_left n m) hlt
    rw [Entry.increment, h.measured hm, h'.measured hn]
    exact Quantity.Whole.ofInt_add m n hlt

/-- Counting in steps of one gives the count, up to the width of a counter. -/
theorem counts_tallied (name : String) (n : Nat) : (tallied name n : Entry α).Counts n := by
  induction n with
  | zero => exact counts_fresh name
  | succ n ih =>
    have hone : Counts { fresh name with measurement := (Quantity.ofInt 1 : α), sampleCount := 1 } 1 :=
      ⟨rfl, fun _ => rfl⟩
    exact ih.increment hone

/-- Children that count add up in their parent. -/
theorem Counts.addAll {entry : Entry α} {m : Nat} (h : entry.Counts m) {children : List (Tree α)}
    (number : String → Nat) (hcounts : ∀ child ∈ children, child.entry.Counts (number child.name)) :
    (Tree.addAll entry children).Counts (m + ((children.map Tree.name).map number).sum) := by
  induction children generalizing entry m with
  | nil => exact h
  | cons child rest ih =>
    obtain ⟨hchild, hrest⟩ := List.forall_mem_cons.mp hcounts
    have hsum := ih (h.increment hchild) hrest
    rw [Nat.add_assoc] at hsum
    exact hsum

end Entry

namespace ErrorGroups

/-! ## The node of a group -/

/-- An error that occurred. -/
structure Occurrence where
  group : String
  message : String
  deriving DecidableEq

/-- The messages of the errors in a group. -/
def messagesOf (group : String) (errors : List Occurrence) : List String :=
  (errors.filter fun error => error.group = group).map Occurrence.message

/-- The messages of a group are kept in the order of the errors. -/
theorem messagesOf_append (group : String) (first second : List Occurrence) :
    messagesOf group (first ++ second) = messagesOf group first ++ messagesOf group second := by
  rw [messagesOf, List.filter_append, List.map_append]
  rfl

theorem messagesOf_singleton_self (error : Occurrence) :
    messagesOf error.group [error] = [error.message] := by
  simp [messagesOf]

theorem messagesOf_singleton_of_ne {group : String} {error : Occurrence}
    (hne : error.group ≠ group) : messagesOf group [error] = [] := by
  simp [messagesOf, hne]

/-- A group is there exactly if an error named it. -/
theorem messagesOf_ne_nil_iff (group : String) (errors : List Occurrence) :
    messagesOf group errors ≠ [] ↔ ∃ error ∈ errors, error.group = group := by
  simp [messagesOf]

/-- Count an error in the node of its group. -/
def countMessage (t : Tree α) (message : String) : Tree α :=
  t.incrementAt [message] (Quantity.ofInt 1) 1

/-- The node of a group after some errors, given by their messages. -/
def ofMessages (group : String) (messages : List String) : Tree α :=
  messages.foldl countMessage (Tree.leaf group)

/-- A message more is one more count in the tree of the messages before it. -/
theorem ofMessages_append (group : String) (messages : List String) (message : String) :
    (ofMessages group (messages ++ [message]) : Tree α)
      = countMessage (ofMessages group messages) message :=
  List.foldl_append

theorem ordered_ofMessages (group : String) (messages : List String) :
    (ofMessages group messages : Tree α).Ordered :=
  List.foldlRecOn messages countMessage (Tree.ordered_leaf group)
    fun _ h message _ => h.incrementAt [message] _ 1

/-- The node of a group is never counted itself. -/
theorem entry_ofMessages (group : String) (messages : List String) :
    (ofMessages group messages : Tree α).entry = Entry.fresh group :=
  List.foldlRecOn (motive := fun t : Tree α => t.entry = Entry.fresh group) messages countMessage
    rfl fun t h message _ => (Tree.entry_amendChild message _ t).trans h

@[simp] theorem name_ofMessages (group : String) (messages : List String) :
    (ofMessages group messages : Tree α).name = group :=
  congrArg Entry.name (entry_ofMessages group messages)

/-- There is a child for each message, and it was counted as often as the message occurred. -/
theorem find?_ofMessages (group : String) (messages : List String) (message : String) :
    (ofMessages group messages : Tree α).find? message
      = if message ∈ messages then
          some (.node (Entry.tallied message (messages.count message)) [])
        else none := by
  induction messages using List.reverseRecOn with
  | nil => rfl
  | append_singleton messages last ih =>
    have hname : ∀ t : Tree α, (t.amendAt [] (·.increment (Quantity.ofInt 1) 1)).name = t.name :=
      Tree.name_incrementAt [] (Quantity.ofInt 1) 1
    rw [ofMessages_append]
    by_cases hlast : last = message
    · -- the child is counted once more, and made for that if this is the first time
      subst hlast
      refine ((ordered_ofMessages group messages).find?_amendChild_self hname last).trans ?_
      rw [ih]
      by_cases hmem : last ∈ messages
      · simp [hmem, Tree.amendAt, Tree.mapTop, Entry.tallied, List.count_append]
      · simp [hmem, Tree.amendAt, Tree.mapTop, Tree.leaf, Entry.tallied, List.count_append,
          List.count_eq_zero_of_not_mem hmem]
    · refine (Tree.find?_amendChild_of_ne _ hname hlast).trans ?_
      rw [ih]
      simp [hlast, Ne.symm hlast, List.count_append]

/-- Every child of a group counts its message as often as it was recorded. -/
theorem mem_children_ofMessages {group : String} {messages : List String} {child : Tree α}
    (hmem : child ∈ (ofMessages group messages : Tree α).children) :
    child.name ∈ messages ∧
      child = .node (Entry.tallied child.name (messages.count child.name)) [] := by
  have hfind := Sorted.find?_of_mem (ordered_ofMessages group messages).ascending hmem
  rw [← Tree.find?, find?_ofMessages] at hfind
  by_cases hname : child.name ∈ messages
  · rw [if_pos hname] at hfind
    exact ⟨hname, (Option.some.inj hfind).symm⟩
  · rw [if_neg hname] at hfind
    cases hfind

/-- Every message that was recorded has a child, and no other has one. -/
theorem mem_names_ofMessages_iff {group : String} {messages : List String} (message : String) :
    message ∈ (ofMessages group messages : Tree α).children.map Tree.name ↔ message ∈ messages := by
  rw [← Sorted.isSome_find?_iff, ← Tree.find?, find?_ofMessages]
  by_cases hmem : message ∈ messages <;> simp [hmem]

/-- Each message is counted at one child, so together they count all of them. -/
theorem sum_count_names (group : String) (messages : List String) :
    (((ofMessages group messages : Tree α).children.map Tree.name).map messages.count).sum
      = messages.length := by
  have hnodup := Sorted.nodup_names (ordered_ofMessages (α := α) group messages).ascending
  have hperm : ((ofMessages group messages : Tree α).children.map Tree.name).Perm messages.dedup := by
    refine (List.perm_ext_iff_of_nodup hnodup messages.nodup_dedup).mpr fun message => ?_
    rw [mem_names_ofMessages_iff, List.mem_dedup]
  rw [(hperm.map messages.count).sum_eq, List.sum_map_count_dedup_eq_length]

/-! ## The picture of a group -/

/-- The children of a group have no children, so a rollup leaves them as they are. -/
theorem rollup_ofMessages (group : String) (messages : List String) :
    (ofMessages group messages : Tree α).rollup
      = .node (Tree.addAll (Entry.fresh group) (ofMessages group messages : Tree α).children)
          (ofMessages group messages : Tree α).children := by
  have hentry := entry_ofMessages (α := α) group messages
  have hleaf : ∀ child ∈ (ofMessages group messages : Tree α).children, child.rollup = child := by
    intro child hmem
    rw [(mem_children_ofMessages hmem).2]
    rfl
  cases htree : (ofMessages group messages : Tree α) with
  | node entry children =>
    rw [htree] at hentry hleaf
    obtain rfl : entry = Entry.fresh group := hentry
    have hmap : children.map Tree.rollup = children :=
      (List.map_congr_left hleaf).trans (List.map_id' children)
    rw [Tree.rollup_node, hmap]
    rfl

/-- What is reported is the group rolled up, under a root that counts it in. -/
theorem breakdown_eq (group : Tree α) :
    breakdown group
      = .node (Tree.addAll (Entry.fresh Tree.rootName) [group.rollup]) [group.rollup] :=
  Tree.rollup_node _ _

/-- The picture of a group of errors shows them: the root has nothing but the group below it, and
the group has its messages, each with the number of its errors. -/
structure Pictures (group : String) (messages : List String) (picture : BreakdownRecord α) :
    Prop where
  root : picture.name = Tree.rootName
  counts : picture.Counts messages.length
  below : ∃ node, picture.children = [node] ∧ node.name = group ∧ node.Counts messages.length ∧
    (node.children.map BreakdownRecord.name).Nodup ∧
    (∀ message, message ∈ node.children.map BreakdownRecord.name ↔ message ∈ messages) ∧
    ∀ child ∈ node.children, child.Counts (messages.count child.name) ∧ child.children = []

section Counting

variable [Quantity.Whole α]

theorem counts_child {group : String} {messages : List String} {child : Tree α}
    (hmem : child ∈ (ofMessages group messages : Tree α).children) :
    child.entry.Counts (messages.count child.name) := by
  obtain ⟨-, hchild⟩ := mem_children_ofMessages hmem
  have htallied := Entry.counts_tallied (α := α) child.name (messages.count child.name)
  rw [hchild, Tree.name_node, Entry.name_tallied]
  exact htallied

theorem counts_rollup (group : String) (messages : List String) :
    (ofMessages group messages : Tree α).rollup.entry.Counts messages.length := by
  have hsum := (Entry.counts_fresh (α := α) group).addAll messages.count
    fun child (hmem : child ∈ (ofMessages group messages).children) => counts_child hmem
  rw [sum_count_names, Nat.zero_add] at hsum
  rw [rollup_ofMessages]
  exact hsum

theorem counts_breakdown (group : String) (messages : List String) :
    (breakdown (ofMessages group messages : Tree α)).entry.Counts messages.length := by
  have hsum := (Entry.counts_fresh (α := α) Tree.rootName).increment
    (counts_rollup (α := α) group messages)
  rw [Nat.zero_add] at hsum
  rw [breakdown_eq]
  exact hsum

/-- The breakdown of a group pictures its messages. -/
theorem pictures_breakdown (group : String) (messages : List String) :
    Pictures group messages (breakdown (ofMessages group messages : Tree α)).toRecord := by
  have hchildren : ((ofMessages group messages : Tree α).rollup).toRecord.children
      = (ofMessages group messages : Tree α).children.map Tree.toRecord := by
    rw [rollup_ofMessages, Tree.toRecord_node]
  have hnames : (((ofMessages group messages : Tree α).rollup).toRecord.children).map
        BreakdownRecord.name
      = (ofMessages group messages : Tree α).children.map Tree.name := by
    rw [hchildren, List.map_map]
    exact List.map_congr_left fun child _ => Tree.name_toRecord child
  refine ⟨?_, Tree.counts_toRecord (counts_breakdown group messages),
    (ofMessages group messages).rollup.toRecord, ?_, ?_,
    Tree.counts_toRecord (counts_rollup group messages), ?_, fun message => ?_, fun child hmem => ?_⟩
  · rw [Tree.name_toRecord, breakdown_eq, Tree.name_node, Tree.name_addAll]
    rfl
  · rw [breakdown_eq, Tree.toRecord_node]
    rfl
  · rw [Tree.name_toRecord, Tree.name_rollup, name_ofMessages]
  · rw [hnames]
    exact Sorted.nodup_names (ordered_ofMessages group messages).ascending
  · rw [hnames, mem_names_ofMessages_iff]
  · rw [hchildren] at hmem
    obtain ⟨node, hnode, rfl⟩ := List.mem_map.mp hmem
    refine ⟨?_, ?_⟩
    · rw [Tree.name_toRecord]
      exact Tree.counts_toRecord (counts_child hnode)
    · rw [(mem_children_ofMessages hnode).2, Tree.toRecord_node]
      rfl

end Counting

/-! ## The invariant -/

/-- The window agrees with the errors recorded since the last report. -/
structure Agrees (e : ErrorGroups α) (errors : List Occurrence) : Prop where
  ordered : e.window.Ordered
  /-- the node of a group is what its messages have made of it -/
  group : ∀ group, e.window.find? group
    = if messagesOf group errors = [] then none
      else some (ofMessages group (messagesOf group errors))

theorem Agrees.start : Agrees (empty : ErrorGroups α) [] :=
  ⟨Tree.ordered_root, fun _ => rfl⟩

/-- An error is counted in the node of its group. -/
theorem Agrees.record {e : ErrorGroups α} {errors : List Occurrence} (h : e.Agrees errors)
    (error : Occurrence) :
    (e.record error.group error.message).Agrees (errors ++ [error]) := by
  have hname : ∀ t : Tree α, (countMessage t error.message).name = t.name :=
    Tree.name_incrementAt [error.message] (Quantity.ofInt 1) 1
  refine ⟨h.ordered.incrementAt _ _ _, fun group => ?_⟩
  by_cases hgroup : error.group = group
  · subst hgroup
    rw [messagesOf_append, messagesOf_singleton_self, if_neg (List.concat_ne_nil _ _),
      ofMessages_append]
    refine (h.ordered.find?_amendChild_self hname error.group).trans ?_
    rw [h.group]
    -- a group without errors has no node yet, and one is made
    by_cases hnone : messagesOf error.group errors = []
    · rw [if_pos hnone, hnone]
      rfl
    · rw [if_neg hnone]
      rfl
  · refine (Tree.find?_amendChild_of_ne e.window hname hgroup).trans ?_
    rw [h.group, messagesOf_append, messagesOf_singleton_of_ne hgroup, List.append_nil]

/-- Groups that agree with the errors are known by them alone. -/
theorem Agrees.eq_ofMessages {e : ErrorGroups α} {errors : List Occurrence} (h : e.Agrees errors)
    {node : Tree α} (hmem : node ∈ e.window.children) :
    node = ofMessages node.name (messagesOf node.name errors) := by
  have hfind := Sorted.find?_of_mem h.ordered.ascending hmem
  rw [← Tree.find?, h.group] at hfind
  by_cases hnone : messagesOf node.name errors = []
  · rw [if_pos hnone] at hfind
    cases hfind
  · rw [if_neg hnone] at hfind
    exact (Option.some.inj hfind).symm

/-- The groups in the window are those of which an error was recorded. -/
theorem Agrees.mem_names_iff {e : ErrorGroups α} {errors : List Occurrence} (h : e.Agrees errors)
    (group : String) :
    group ∈ e.window.children.map Tree.name ↔ ∃ error ∈ errors, error.group = group := by
  rw [← Sorted.isSome_find?_iff, ← Tree.find?, h.group, ← messagesOf_ne_nil_iff]
  by_cases hnone : messagesOf group errors = [] <;> simp [hnone]

/-! ## What a report queues -/

/-- The metric of a group. -/
def metricOf (config : Config) (group : String) : Metric α (Tree α) :=
  Metric.create config .state .errorProfile group .none

/-- The length of a window, in seconds. -/
def windowLength (config : Config) : UInt64 :=
  UInt64.ofNat config.timings.errorInterval.toSeconds

/-- The record queued for a group. -/
def pictured (moment : Moment) (config : Config) (mint : Mint) (group : Tree α) :
    MetricRecord α :=
  (metricOf config group.name).pictured mint moment (windowLength config) (breakdown group)

/-- The records queued for the groups of a window. -/
def pictures (o : Outlet) (moment : Moment) (groups : List (Tree α)) : List (MetricRecord α) :=
  Outlet.inTurn (pictured moment o.config) moment o.mint groups

/-- Reporting a group queues one message, and cannot fail. -/
theorem reportGroup_queued (o : Outlet) (moment : Moment) (group : Tree α) :
    ∃ o', reportGroup o moment group = (true, o') ∧
      Outlet.Queued moment.now [pictured moment o.config o.mint group] o o' := by
  have hkind : (metricOf o.config group.name : Metric α (Tree α)).kind ≠ .counter := by
    intro hcounter
    cases hcounter
  obtain ⟨metric, o', hreport, -, hqueued⟩ := Outlet.report_queued hkind o moment
    (windowLength o.config) (breakdown group)
  refine ⟨o', ?_, hqueued⟩
  rw [metricOf, windowLength] at hreport
  rw [reportGroup, Outlet.metric, hreport]

/-- Every group is queued, and their number is returned. -/
theorem reportAll_queued (moment : Moment) (groups : List (Tree α)) (o : Outlet) :
    ∃ o', reportAll moment groups o = (groups.length, o') ∧
      Outlet.Queued moment.now (pictures o moment groups) o o' := by
  induction groups generalizing o with
  | nil => exact ⟨o, rfl, .nil moment.now o⟩
  | cons group rest ih =>
    obtain ⟨o₁, hgroup, hqueued⟩ := reportGroup_queued o moment group
    obtain ⟨o₂, hrest, hothers⟩ := ih o₁
    refine ⟨o₂, ?_, hqueued.inTurn_cons hothers⟩
    simp only [reportAll, hgroup, hrest, List.length_cons, Nat.add_comm]
    rfl

/-- The record of a metric shows the errors of one group, given by their messages. -/
structure Shows (messages : List String) (record : MetricRecord α) : Prop where
  kind : record.kind = .state
  category : record.category = .errorProfile
  unit : record.unit = .none
  observed : ∃ observation picture,
    record.measurement = some observation ∧
    (messages.length < Binary64.wholeLimit →
      observation.value = Quantity.ofInt messages.length) ∧
    observation.breakdown = some picture ∧
    Pictures record.name messages picture

/-- What is queued for a group shows its messages. -/
theorem shows_pictured [Quantity.Whole α] (moment : Moment) (config : Config) (mint : Mint)
    (group : String) (messages : List String) :
    Shows messages (pictured moment config mint (ofMessages group messages : Tree α)) := by
  refine ⟨rfl, rfl, rfl, _, _, rfl, (counts_breakdown group messages).measured, rfl, ?_⟩
  have hname : (pictured moment config mint (ofMessages group messages : Tree α)).name = group :=
    name_ofMessages group messages
  rw [hname]
  exact pictures_breakdown group messages

/-! ## Histories -/

/-- Something that is asked of the errors. -/
inductive Request where
  /-- an error is recorded -/
  | record (group message : String)
  /-- the window is reported -/
  | report (o : Outlet) (moment : Moment)

/-- The error that a request records. -/
def Request.error? : Request → Option Occurrence
  | .record group message => some { group, message }
  | .report _ _ => none

/-- Where and when a request reports. -/
def Request.report? : Request → Option (Outlet × Moment)
  | .record _ _ => none
  | .report o moment => some (o, moment)

/-- A report that was made. -/
structure Report (α : Type) where
  outlet : Outlet
  moment : Moment
  /-- the errors recorded since the report before it -/
  errors : List Occurrence
  /-- the records it queued -/
  records : List (MetricRecord α)
  /-- the number it returned, and the outlet then -/
  outcome : Nat × Outlet

/-- A report queues a metric for each group recorded since the report before it. -/
structure Report.Faithful (r : Report α) : Prop where
  queued : Outlet.Queued r.moment.now r.records r.outlet r.outcome.2
  number : r.outcome.1 = r.records.length
  /-- no group has two metrics -/
  distinct : (r.records.map MetricRecord.name).Nodup
  /-- the groups that have one are those that were recorded -/
  recorded : ∀ group, group ∈ r.records.map MetricRecord.name ↔
    ∃ error ∈ r.errors, error.group = group
  /-- each metric shows the errors of its group -/
  shows : ∀ record ∈ r.records, Shows (messagesOf record.name r.errors) record

/-- The errors of an agent, and what was asked of them. -/
structure History (α : Type) [Quantity α] where
  groups : ErrorGroups α := empty
  /-- the errors recorded since the last report, oldest first -/
  current : List Occurrence := []
  /-- the reports made, oldest first -/
  reports : List (Report α) := []

namespace History

/-- The next request of a run. -/
def next (h : History α) : Request → History α
  | .record group message =>
    { h with groups := h.groups.record group message, current := h.current ++ [{ group, message }] }
  | .report o moment =>
    let (number, groups, o') := h.groups.report o moment
    { groups
      current := []
      reports := h.reports ++
        [{ outlet := o, moment, errors := h.current
           records := pictures o moment h.groups.window.children, outcome := (number, o') }] }

/-- A run of requests from the start of an agent. -/
def of (requests : List Request) : History α := requests.foldl next {}

/-- The errors that were recorded, oldest first. -/
def errors (h : History α) : List Occurrence := h.reports.flatMap Report.errors ++ h.current

/-- What holds throughout a run. -/
structure Kept (requests : List Request) (h : History α) : Prop where
  agrees : h.groups.Agrees h.current
  /-- every error is in one report, or waits for the next one -/
  errors : h.errors = requests.filterMap Request.error?
  /-- every report was made -/
  reported : h.reports.map (fun r => (r.outlet, r.moment)) = requests.filterMap Request.report?
  faithful : ∀ r ∈ h.reports, r.Faithful

variable {requests : List Request} {h : History α}

theorem Kept.record (hk : h.Kept requests) (group message : String) :
    (h.next (.record group message)).Kept (requests ++ [.record group message]) := by
  refine ⟨hk.agrees.record { group, message }, ?_, ?_, hk.faithful⟩
  · rw [List.filterMap_append, ← hk.errors]
    exact (List.append_assoc _ _ _).symm
  · rw [List.filterMap_append, ← hk.reported]
    exact (List.append_nil _).symm

variable [Quantity.Whole α]

/-- The report of a window is faithful. -/
theorem Kept.faithful_report (hk : h.Kept requests) {o o' : Outlet} {moment : Moment}
    (hqueued : Outlet.Queued moment.now (pictures o moment h.groups.window.children) o o') :
    Report.Faithful
      { outlet := o, moment, errors := h.current
        records := pictures o moment h.groups.window.children
        outcome := (h.groups.window.children.length, o') } := by
  have hnames : (pictures o moment h.groups.window.children).map MetricRecord.name
      = h.groups.window.children.map Tree.name :=
    Outlet.names_inTurn Tree.name (fun _ _ => rfl) o.mint _
  refine ⟨hqueued, (Outlet.length_inTurn _ _).symm, ?_, fun group => ?_, fun record hmem => ?_⟩
  · rw [hnames]
    exact Sorted.nodup_names hk.agrees.ordered.ascending
  · rw [hnames]
    exact hk.agrees.mem_names_iff group
  · obtain ⟨node, hnode, mint, rfl⟩ := Outlet.mem_inTurn hmem
    have hshows := shows_pictured moment o.config mint node.name (messagesOf node.name h.current)
      (α := α)
    rw [← hk.agrees.eq_ofMessages hnode] at hshows
    exact hshows

/-- What was recorded is moved to the report. -/
theorem Kept.report (hk : h.Kept requests) (o : Outlet) (moment : Moment) :
    (h.next (.report o moment)).Kept (requests ++ [.report o moment]) := by
  obtain ⟨o', hreport, hqueued⟩ := reportAll_queued moment h.groups.window.children o
  refine ⟨Agrees.start, ?_, ?_, fun r hmem => ?_⟩
  · rw [List.filterMap_append, ← hk.errors]
    simp [next, History.errors, Request.error?]
  · rw [List.filterMap_append, ← hk.reported]
    simp [next, Request.report?]
  · simp only [next, ErrorGroups.report, hreport] at hmem
    rcases List.mem_append.mp hmem with hmem | hmem
    · exact hk.faithful r hmem
    · rw [List.mem_singleton.mp hmem]
      refine hk.faithful_report ?_
      by_cases hnone : h.groups.window.children.length = 0
      · rw [if_pos hnone]
        exact hqueued
      · rw [if_neg hnone]
        exact hqueued.info _

/-- Recording and reporting both keep the history, so any request does. -/
theorem Kept.next (hk : h.Kept requests) (request : Request) :
    (h.next request).Kept (requests ++ [request]) := by
  cases request with
  | record group message => exact hk.record group message
  | report o moment => exact hk.report o moment

/-- By induction over the requests, from `Kept.next`. -/
theorem kept_of (requests : List Request) : (of requests : History α).Kept requests := by
  induction requests using List.reverseRecOn with
  | nil => exact ⟨Agrees.start, rfl, rfl, List.forall_mem_nil _⟩
  | append_singleton requests request ih =>
    rw [of, List.foldl_append]
    exact ih.next request

end History

end ErrorGroups

end Telemetry
