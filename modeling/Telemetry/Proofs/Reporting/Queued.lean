import Telemetry.Outlet

/-!
# What a report leaves behind

A report hands a tree to the outlet under a metric. Unless that metric is a counter, what comes of it
is always the same: an id is minted, the tree goes to the queue as part of one record, and nothing
else is done (`Outlet.report_eq`). So what several reports do is said by the list of their records
(`Outlet.Queued`).
-/

namespace Telemetry

variable {α : Type}

/-- The record of a metric of which a tree is observed by a timer. -/
def Metric.pictured (m : Metric α (Tree α)) (mint : Mint) (moment : Moment) (duration : UInt64)
    (breakdown : Tree α) : MetricRecord α :=
  { id := m.id.text, kind := m.kind, category := m.category, name := m.name, unit := m.unit
    measurement := some
      { id := (mint.next moment).1.text, trigger := .timer, value := breakdown.measurement, duration
        breakdown := some breakdown.toRecord, timestamp := moment.now.seconds } }

/-- A metric apart from what was observed of it. -/
def Metric.bare (m : Metric α (Tree α)) : Metric α (Tree α) := { m with measurement := none }

namespace Outlet

variable [Quantity α]

/-- The message in which a record goes out. -/
def message (now : UnixTime) (record : MetricRecord α) : Delivery.Message :=
  { topic := metricTopic, body := .structured record.toJson.sorted, addedAt := now }

/-- One outlet has become another by queueing records, each with an id minted for it. Apart from that
only the journal may have changed. -/
structure Queued (now : UnixTime) (records : List (MetricRecord α)) (o o' : Outlet) : Prop where
  dispatch : o'.delivery.dispatch
    = { o.delivery.dispatch with queue := o.delivery.pending ++ records.map (message now) }
  issued : o'.mint.issued = o.mint.issued + UInt64.ofNat records.length
  config : o'.config = o.config
  envelope : o'.delivery.envelope = o.delivery.envelope
  expiry : o'.delivery.expiry = o.delivery.expiry

namespace Queued

variable {now : UnixTime} {records more : List (MetricRecord α)} {o o' o'' : Outlet}

theorem pending (h : Queued now records o o') :
    o'.delivery.pending = o.delivery.pending ++ records.map (message now) :=
  congrArg Delivery.Dispatch.queue h.dispatch

theorem nil (now : UnixTime) (o : Outlet) : Queued now ([] : List (MetricRecord α)) o o where
  dispatch := by
    rw [List.map_nil, List.append_nil]
    rfl
  issued := (UInt64.add_zero _).symm
  config := rfl
  envelope := rfl
  expiry := rfl

/-- It does not matter what is written down. -/
theorem info (h : Queued now records o o') (text : String) : Queued now records o (o'.info text) :=
  ⟨h.dispatch, h.issued, h.config, h.envelope, h.expiry⟩

theorem error (h : Queued now records o o') (text : String) :
    Queued now records o (o'.error text) :=
  ⟨h.dispatch, h.issued, h.config, h.envelope, h.expiry⟩

theorem append (h : Queued now records o o') (h' : Queued now more o' o'') :
    Queued now (records ++ more) o o'' where
  dispatch := by rw [h'.dispatch, h.dispatch, h.pending, List.map_append, List.append_assoc]
  issued := by
    rw [h'.issued, h.issued, List.length_append, UInt64.ofNat_add, UInt64.add_assoc]
  config := h'.config.trans h.config
  envelope := h'.envelope.trans h.envelope
  expiry := h'.expiry.trans h.expiry

end Queued

/-- A metric is queued if it holds a measurement. -/
theorem emit_fst (o : Outlet) (now : UnixTime) (m : Metric α (Tree α)) :
    (o.emit now m).1 = m.measurement.isSome := by
  cases hm : m.measurement <;> simp [emit, hm]

theorem config_emit (o : Outlet) (now : UnixTime) (m : Metric α (Tree α)) :
    (o.emit now m).2.config = o.config := by
  cases hm : m.measurement <;> simp [emit, hm]

theorem pending_emit (o : Outlet) (now : UnixTime) (m : Metric α (Tree α)) :
    (o.emit now m).2.delivery.pending
      = o.delivery.pending ++
        if (o.emit now m).1 then [message now (m.toRecord fun tree => some tree.toRecord)]
        else [] := by
  cases hm : m.measurement with
  | none => simp [emit, hm]
  | some measurement =>
    simp only [emit, hm, if_true]
    rfl

/-- What comes of the report of a metric that is not a counter. -/
theorem report_eq {m : Metric α (Tree α)} (hkind : m.kind ≠ .counter) (o : Outlet)
    (moment : Moment) (duration : UInt64) (breakdown : Tree α) :
    o.report moment m duration breakdown
      = (true,
          { m with
            measurement := some
              { id := (o.mint.next moment).1, trigger := .timer, value := breakdown.measurement
                duration, breakdown := some breakdown, timestamp := moment.now } },
          { o with
            mint := (o.mint.next moment).2
            delivery := o.delivery.enqueue moment.now metricTopic
              (m.pictured o.mint moment duration breakdown).toJson }) := by
  cases hm : m.kind with
  | counter => exact absurd hm hkind
  | _ =>
    simp [report, emit, hm, Metric.observe, Metric.observed?, Metric.pictured, Metric.toRecord]

/-- A report queues one record, and the metric stays what it is. -/
theorem report_queued {m : Metric α (Tree α)} (hkind : m.kind ≠ .counter) (o : Outlet)
    (moment : Moment) (duration : UInt64) (breakdown : Tree α) :
    ∃ m' o', o.report moment m duration breakdown = (true, m', o') ∧ m'.bare = m.bare ∧
      Queued moment.now [m.pictured o.mint moment duration breakdown] o o' :=
  ⟨_, _, report_eq hkind o moment duration breakdown, rfl, rfl, rfl, rfl, rfl, rfl⟩

/-! ## One after the other -/

section InTurn

variable {β : Type} {picture : Mint → β → MetricRecord α} {moment : Moment}

/-- The records of things that are reported in turn, each under the next id. -/
def inTurn (picture : Mint → β → MetricRecord α) (moment : Moment) :
    Mint → List β → List (MetricRecord α)
  | _, [] => []
  | mint, item :: rest => picture mint item :: inTurn picture moment (mint.next moment).2 rest

omit [Quantity α] in
theorem length_inTurn (mint : Mint) (items : List β) :
    (inTurn picture moment mint items).length = items.length := by
  induction items generalizing mint with
  | nil => rfl
  | cons item rest ih => exact congrArg Nat.succ (ih _)

omit [Quantity α] in
theorem names_inTurn (nameOf : β → String)
    (hname : ∀ mint item, (picture mint item).name = nameOf item) (mint : Mint) (items : List β) :
    (inTurn picture moment mint items).map MetricRecord.name = items.map nameOf := by
  induction items generalizing mint with
  | nil => rfl
  | cons item rest ih => rw [inTurn, List.map_cons, List.map_cons, hname, ih]

omit [Quantity α] in
theorem mem_inTurn {mint : Mint} {items : List β} {record : MetricRecord α}
    (hmem : record ∈ inTurn picture moment mint items) :
    ∃ item ∈ items, ∃ mint, record = picture mint item := by
  induction items generalizing mint with
  | nil => cases hmem
  | cons item rest ih =>
    rcases List.mem_cons.mp hmem with rfl | hmem
    · exact ⟨item, List.mem_cons_self, mint, rfl⟩
    · obtain ⟨other, hother, mint', hrecord⟩ := ih hmem
      exact ⟨other, List.mem_cons_of_mem item hother, mint', hrecord⟩

omit [Quantity α] in
theorem exists_mem_inTurn {item : β} {items : List β} (hmem : item ∈ items) (mint : Mint) :
    ∃ mint', picture mint' item ∈ inTurn picture moment mint items := by
  induction items generalizing mint with
  | nil => cases hmem
  | cons other rest ih =>
    rcases List.mem_cons.mp hmem with rfl | hmem
    · exact ⟨mint, List.mem_cons_self⟩
    · obtain ⟨mint', hrest⟩ := ih hmem (mint.next moment).2
      exact ⟨mint', List.mem_cons_of_mem _ hrest⟩

/-- The first of several things is reported under the next id, and the others come after it. -/
theorem Queued.inTurn_cons {o o' o'' : Outlet} {picture : Config → Mint → β → MetricRecord α}
    {item : β} {rest : List β}
    (hfirst : Queued moment.now [picture o.config o.mint item] o o')
    (hothers : Queued moment.now (inTurn (picture o'.config) moment o'.mint rest) o' o'') :
    Queued moment.now (inTurn (picture o.config) moment o.mint (item :: rest)) o o'' := by
  have hmint : o'.mint = (o.mint.next moment).2 := congrArg Mint.mk hfirst.issued
  rw [hfirst.config, hmint] at hothers
  exact hfirst.append hothers

omit [Quantity α] in
theorem inTurn_append (mint : Mint) (items more : List β) :
    inTurn picture moment mint (items ++ more)
      = inTurn picture moment mint items
        ++ inTurn picture moment ⟨mint.issued + UInt64.ofNat items.length⟩ more := by
  induction items generalizing mint with
  | nil =>
    exact congrArg (fun issued => inTurn picture moment ⟨issued⟩ more) (UInt64.add_zero _).symm
  | cons item rest ih =>
    have hissued : (mint.next moment).2.issued + UInt64.ofNat rest.length
        = mint.issued + UInt64.ofNat (item :: rest).length := by
      rw [List.length_cons, Nat.add_comm, UInt64.ofNat_add, ← UInt64.add_assoc]
      rfl
    rw [List.cons_append, inTurn, ih, hissued]
    rfl

/-- What is reported later has the ids that come later. -/
theorem Queued.inTurn_append {o o' o'' : Outlet} {items more : List β}
    (hfirst : Queued moment.now (inTurn picture moment o.mint items) o o')
    (hothers : Queued moment.now (inTurn picture moment o'.mint more) o' o'') :
    Queued moment.now (inTurn picture moment o.mint (items ++ more)) o o'' := by
  have hmint : o'.mint = ⟨o.mint.issued + UInt64.ofNat items.length⟩ := by
    have hlength : (inTurn picture moment o.mint items).length = items.length :=
      length_inTurn o.mint items
    rw [← hlength]
    exact congrArg Mint.mk hfirst.issued
  rw [hmint] at hothers
  rw [Outlet.inTurn_append]
  exact hfirst.append hothers

end InTurn

end Outlet

end Telemetry
