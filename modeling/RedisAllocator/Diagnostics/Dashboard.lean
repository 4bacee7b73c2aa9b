import RedisAllocator.Diagnostics.Snapshot
import RedisAllocator.Lib.GuardedRegister

/-!
# The dashboard's growth figures

`_snapshot_payload`: the handler threads of the dashboard take their snapshots under
one lock, each against the snapshot before it, whoever asked for that one.  So what
the payloads of all clients report as growth adds up.
-/

set_option autoImplicit false

namespace RedisAllocator

open GuardedRegister LabelledRun

def AllocatorDiagnosticsSnapshot.calls (report : AllocatorDiagnosticsSnapshot) (command : String) :
    Int :=
  ((CommandStat.commandCalls report.commandstats).bind fun calls => calls.lookup command).getD 0

/-! ## One report against the one before it -/

theorem lookup_positive (f : String → Int) {command : String} {commands : List String}
    (known : command ∈ commands ∨ f command = 0) :
    (((commands.map fun c => (c, f c)).filter (0 < ·.2)).lookup command).getD 0 =
      max 0 (f command) := by
  induction commands with
  | nil =>
      rw [known.resolve_left List.not_mem_nil]
      rfl
  | cons c rest ih =>
      rw [List.map_cons]
      by_cases same : command = c
      · subst same
        by_cases grew : 0 < f command
        · rw [List.filter_cons_of_pos (by simpa using grew), List.lookup_cons_self, Option.getD_some,
            max_eq_right grew.le]
        · rw [List.filter_cons_of_neg (by simpa using grew), max_eq_left (not_lt.mp grew)]
          have absent : ∀ grown ∈ (rest.map fun c => (c, f c)).filter (0 < ·.2),
              (command != grown.1) = true := by
            intro grown inRest
            obtain ⟨listed, positive⟩ := List.mem_filter.mp inRest
            obtain ⟨c, _, rfl⟩ := List.mem_map.mp listed
            rw [bne_iff_ne]
            rintro rfl
            exact grew (by simpa using positive)
          rw [List.lookup_eq_none_iff.mpr absent]
          rfl
      · have later := ih (known.imp_left fun present =>
          (List.mem_cons.mp present).resolve_left same)
        by_cases grew : 0 < f c
        · rw [List.filter_cons_of_pos (by simpa using grew), List.lookup_cons, beq_false_of_ne same]
          exact later
        · rw [List.filter_cons_of_neg (by simpa using grew)]
          exact later

theorem lookup_deltas (previousCalls currentCalls : CommandCalls) (command : String) :
    (((deltas previousCalls currentCalls).filter (0 < ·.2)).lookup command).getD 0 =
      max 0 ((currentCalls.lookup command).getD 0 - (previousCalls.lookup command).getD 0) := by
  refine lookup_positive (fun command =>
    (currentCalls.lookup command).getD 0 - (previousCalls.lookup command).getD 0) ?_
  rw [List.mem_mergeSort, List.mem_dedup, List.mem_append, or_iff_not_imp_left, not_or]
  rintro ⟨notBefore, notNow⟩
  rw [AList.lookup_eq_none.mpr notBefore, AList.lookup_eq_none.mpr notNow]
  rfl

theorem Collector.snapshot_pressure {collector : Collector} {allocator : Allocator}
    {previous : Option AllocatorDiagnosticsSnapshot} {readings : Readings}
    {report : AllocatorDiagnosticsSnapshot}
    (taken : collector.snapshot allocator previous readings = some report) :
    pressure previous readings.pressureClock report.commandstats report.pool.total =
      some report.pressure := by
  obtain ⟨pressure, measured, made⟩ := Option.bind_eq_some_iff.mp taken
  cases Option.some.inj made
  exact measured

theorem pressure_grows {previous report : AllocatorDiagnosticsSnapshot} {clock : Rat}
    (measured : pressure (some previous) clock report.commandstats report.pool.total =
      some report.pressure) (forward : 0 < report.pressure.intervalSeconds) :
    report.pressure.allocatorKeyspaceDelta = report.pool.total - previous.pool.total ∧
      ∀ command, report.pressure.delta command =
        max 0 (report.calls command - previous.calls command) := by
  generalize report.pressure = current at measured forward ⊢
  simp only [pressure] at measured
  split at measured
  · cases measured
    exact absurd forward (lt_irrefl 0)
  · obtain ⟨previousCalls, before, measured⟩ := Option.bind_eq_some_iff.mp measured
    obtain ⟨currentCalls, now, measured⟩ := Option.bind_eq_some_iff.mp measured
    cases measured
    refine ⟨rfl, fun command => ?_⟩
    rw [PressureDiagnostics.delta, lookup_deltas, AllocatorDiagnosticsSnapshot.calls,
      AllocatorDiagnosticsSnapshot.calls, before, now]
    rfl

/-! ## All the reports of a dashboard -/

abbrev DashboardRun {Thread : Type} [DecidableEq Thread] (collector : Collector)
    (allocator : Allocator) : State Thread AllocatorDiagnosticsSnapshot →
      List (Act Thread Readings) → State Thread AllocatorDiagnosticsSnapshot → Prop :=
  Run (GuardedRegister.Step (collector.snapshot allocator))

/-- From `first` to `last`, the reported changes of the pool's size add up to its change, and the
reported calls of a command to its growth at least, and to no more if its counter never fell. -/
structure Accounts (reports : List AllocatorDiagnosticsSnapshot)
    (first last : AllocatorDiagnosticsSnapshot) : Prop where
  keyspace : (reports.map (·.pressure.allocatorKeyspaceDelta)).sum =
    last.pool.total - first.pool.total
  atLeast : ∀ command, last.calls command - first.calls command ≤
    (reports.map (·.pressure.delta command)).sum
  exact_iff : ∀ command, (reports.map (·.pressure.delta command)).sum =
      last.calls command - first.calls command ↔
    reports.IsChain fun a b => a.calls command ≤ b.calls command

theorem Accounts.single {report : AllocatorDiagnosticsSnapshot}
    (quiet : report.pressure = .none) : Accounts [report] report report := by
  have silent (command : String) : report.pressure.delta command = 0 := by rw [quiet]; rfl
  refine ⟨?_, fun command => ?_, fun command => ?_⟩
  · simp [quiet, PressureDiagnostics.none]
  · simp [silent]
  · simp [silent]

theorem Accounts.snoc {reports : List AllocatorDiagnosticsSnapshot}
    {first previous report : AllocatorDiagnosticsSnapshot}
    (accounts : Accounts reports first previous) (last : reports.getLast? = some previous)
    (keyspace : report.pressure.allocatorKeyspaceDelta = report.pool.total - previous.pool.total)
    (grows : ∀ command, report.pressure.delta command =
      max 0 (report.calls command - previous.calls command)) :
    Accounts (reports ++ [report]) first report := by
  refine ⟨?_, fun command => ?_, fun command => ?_⟩
  · rw [List.map_append, List.sum_append, accounts.keyspace, List.map_singleton,
      List.sum_singleton, keyspace]
    omega
  · have before := accounts.atLeast command
    rw [List.map_append, List.sum_append, List.map_singleton, List.sum_singleton, grows]
    omega
  · have before := accounts.atLeast command
    rw [List.isChain_append, ← accounts.exact_iff, List.map_append, List.sum_append,
      List.map_singleton, List.sum_singleton, grows, last]
    simp
    omega

theorem accounts_of_successive {collector : Collector} {allocator : Allocator}
    {reports : List AllocatorDiagnosticsSnapshot}
    (successive : Successive (collector.snapshot allocator) reports)
    (forward : ∀ report ∈ reports.tail, 0 < report.pressure.intervalSeconds)
    {first last : AllocatorDiagnosticsSnapshot} (opens : reports.head? = some first)
    (closes : reports.getLast? = some last) : Accounts reports first last := by
  induction successive generalizing last with
  | nil => cases opens
  | @snoc earlier readings report successive next ih =>
      rw [List.getLast?_concat] at closes
      cases closes
      have measured := Collector.snapshot_pressure next
      cases earlier with
      | nil =>
          cases opens
          exact .single (Option.some.inj measured).symm
      | cons head rest =>
          cases opens
          have before := List.getLast?_cons (a := first) (l := rest)
          rw [before] at measured
          rw [List.cons_append, List.tail_cons, List.forall_mem_append] at forward
          obtain ⟨keyspace, grows⟩ :=
            pressure_grows measured (forward.2 report (List.mem_singleton_self _))
          exact (ih forward.1 rfl before).snoc before keyspace grows

/-- However the requests of the clients overlap, each snapshot is measured against the one before
it, so that over all clients nothing is reported twice and nothing is left out while the clock goes
forward. -/
theorem dashboard_accounts {Thread : Type} [DecidableEq Thread] {collector : Collector}
    {allocator : Allocator} {acts : List (Act Thread Readings)}
    {final : State Thread AllocatorDiagnosticsSnapshot}
    (run : DashboardRun collector allocator .start acts final)
    (forward : ∀ report ∈ final.log.tail, 0 < report.pressure.intervalSeconds)
    {first last : AllocatorDiagnosticsSnapshot} (opens : final.log.head? = some first)
    (closes : final.log.getLast? = some last) : Accounts final.log first last :=
  accounts_of_successive (successive_of_run run) forward opens closes

def laterReadings : Readings :=
  { sampleReadings with
    commandstats := AList.singleton "cmdstat_eval" (.fields (some 4))
    pressureClock := 3
    clock := 3 }

def laterReport : AllocatorDiagnosticsSnapshot :=
  (Collector.snapshot ⟨20, 1000⟩ plainAllocator (some sampleReport) laterReadings).get
    (by decide +kernel)

def twoRequests : List (Act Bool Readings) :=
  request true sampleReadings ++ (request false laterReadings ++ [])

def twoServed : State Bool AllocatorDiagnosticsSnapshot :=
  ⟨some laterReport, none, fun _ => .outside, [sampleReport, laterReport]⟩

theorem twoRequests_run : DashboardRun ⟨20, 1000⟩ plainAllocator .start twoRequests twoServed := by
  have first : Collector.snapshot ⟨20, 1000⟩ plainAllocator none sampleReadings =
      some sampleReport := (Option.some_get _).symm
  have second : Collector.snapshot ⟨20, 1000⟩ plainAllocator (some sampleReport) laterReadings =
      some laterReport := (Option.some_get _).symm
  exact request_run rfl rfl first (request_run rfl rfl second (.done _))

theorem dashboard_accounts_two : Accounts twoServed.log sampleReport laterReport :=
  dashboard_accounts twoRequests_run (by
    intro report isLater
    obtain rfl := List.mem_singleton.mp isLater
    decide +kernel) rfl rfl

end RedisAllocator
