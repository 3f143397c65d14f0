import Gradatum.Queue.Sound

/-!
# Agreement of the reads

`get` puts the columns of a row over the record in its payload; `list` and `latest_job` hand out the
record as it is.  The reads agree just when the two copies of every row do (`InSync`), and several
operations write one copy alone.
-/

open Reasoning

namespace Gradatum.Queue

open List Bool Table

/-! ## 1. Agreement of reads -/

structure SameReport (r r' : JobRecord) : Prop where
  status : r.lifecycle.status = r'.lifecycle.status
  count : r.retry.count = r'.retry.count
  lastError : r.retry.lastError = r'.retry.lastError

def AgreesWithGet (t : JobTable) (tenant : Option String) (r : JobRecord) : Prop :=
  (∃ got, get r.id tenant t = .ok (some got)) ∧
    ∀ tenant' got, get r.id tenant' t = .ok (some got) → SameReport r got

structure ReadsAgree (t : JobTable) : Prop where
  listed : ∀ filter records, list filter t = .ok records → ∀ r ∈ records,
    AgreesWithGet t filter.tenant r
  filtered : ∀ filter records st, list filter t = .ok records → filter.status = some st →
    ∀ r ∈ records, r.lifecycle.status = st
  latest : ∀ tenant r, latestJob tenant t = .ok (some r) → AgreesWithGet t tenant r

/-- The payload of the row shows what its columns do. -/
structure InSync (row : JobRow) (record : JobRecord) : Prop where
  status : record.lifecycle.status = row.status
  count : record.retry.count = UInt32.ofNat row.attemptCount
  lastError : ∀ err, row.lastError = some err → record.retry.lastError = some err

def RowInSync (row : JobRow) : Prop := ∀ record, row.payload = .json record → InSync row record

def AllInSync (t : JobTable) : Prop := ∀ k row, t.find? k = some row → RowInSync row

theorem sameReport_applySqlAuthority_iff :
    SameReport record (applySqlAuthority row record) ↔ InSync row record := by
  constructor
  · rintro ⟨hstat, hcount, herr⟩
    refine ⟨hstat, hcount, fun err hcol => ?_⟩
    simpa [applySqlAuthority, hcol] using herr
  rintro ⟨hstat, hcount, herr⟩
  refine ⟨hstat, hcount, ?_⟩
  cases hcol : row.lastError with
  | none => simp [applySqlAuthority, hcol]
  | some err => simp [applySqlAuthority, hcol, herr err hcol]

variable {t : JobTable} {row : JobRow} {filter : JobFilter}

theorem get_eq_of_sound {id : Ulid}
    (hrow : t.find? id = some row) (hs : RowSound row record) (tenant : Option String) :
    get id tenant t =
      .ok (if matchesFilter tenant row.tenantId = true then some (applySqlAuthority row record)
        else none) := by
  unfold get
  rw [hrow, Option.filter_some]
  by_cases hten : matchesFilter tenant row.tenantId = true
  · rw [if_pos hten, if_pos hten]
    simp only [hs.payload, deserializeRecord]
    rfl
  · rw [if_neg hten, if_neg hten]

theorem agreesWithGet_iff (hrow : t.find? row.id = some row) (hs : RowSound row record)
    (hten : matchesFilter tenant row.tenantId = true) :
    AgreesWithGet t tenant record ↔ InSync row record := by
  have hget := get_eq_of_sound hrow hs
  rw [← hs.id] at hget
  rw [← sameReport_applySqlAuthority_iff]
  constructor
  · rintro ⟨-, hsame⟩
    apply hsame tenant
    rw [hget, if_pos hten]
  intro hsame
  refine ⟨⟨_, by rw [hget, if_pos hten]⟩, fun tenant' got hgot => ?_⟩
  rw [hget, Except.ok.injEq] at hgot
  split at hgot
  · cases hgot
    exact hsame
  · cases hgot

/-! ## 2. A table whose rows are in sync -/

theorem exists_of_mem_mapM {α β ε : Type} {f : α → Except ε β} {xs : List α} {ys : List β}
    (h : xs.mapM f = .ok ys) {y : β} (hy : y ∈ ys) : ∃ x ∈ xs, f x = .ok y := by
  induction xs generalizing ys with
  | nil =>
    cases h
    cases hy
  | cons x xs ih =>
    rw [mapM_cons] at h
    cases hx : f x with
    | error e =>
      rw [hx] at h
      cases h
    | ok z =>
      cases hxs : xs.mapM f with
      | error e =>
        rw [hx, hxs] at h
        cases h
      | ok zs =>
        rw [hx, hxs] at h
        cases h
        rcases mem_cons.1 hy with rfl | hrest
        · exact ⟨x, by simp, hx⟩
        · obtain ⟨x', hmem, hx'⟩ := ih hxs hrest
          exact ⟨x', by simp [hmem], hx'⟩

theorem mem_rows_of_mem_filter (h : row ∈ filter.rows t) : row ∈ t.rows ∧ filter.selects row = true := by
  have hsort := mem_of_mem_take h
  cases horder : filter.order with
  | createdAsc | createdDesc =>
    simp only [horder, mem_insertionSort] at hsort
    exact mem_filter.1 hsort

theorem row_of_mem_list (hsound : Sound t) (h : list filter t = .ok records) (hr : r ∈ records) :
    ∃ row, t.find? row.id = some row ∧ RowSound row r ∧ filter.selects row = true := by
  obtain ⟨row, hmem, hrec⟩ := exists_of_mem_mapM h hr
  obtain ⟨hrows, hsel⟩ := mem_rows_of_mem_filter hmem
  have hfind := find?_of_mem hrows
  obtain ⟨record, hs⟩ := hsound _ row hfind
  rw [hs.payload, deserializeRecord] at hrec
  cases hrec
  exact ⟨row, hfind, hs, hsel⟩

theorem selects_tenant (h : filter.selects row = true) :
    matchesFilter filter.tenant row.tenantId = true := by
  simp only [JobFilter.selects, and_eq_true] at h
  exact h.1.1.1.2

theorem selects_status (h : filter.selects row = true)
    (hst : filter.status = some st) : row.status = st := by
  simp only [JobFilter.selects, and_eq_true, hst, matchesFilter, decide_eq_true_eq] at h
  exact h.1.1.1.1.1.2

/-- The page of one row that starts at the id `k`. -/
def pageAt (k : Ulid) : JobFilter where
  jobClass := none
  status := none
  kind := none
  createdAfter := none
  createdBefore := none
  order := .createdAsc
  limit := 1
  cursor := if k = 0 then none else some (k - 1)
  tenant := none

theorem pageAt_selects_iff (k : Ulid) (row : JobRow) : (pageAt k).selects row = true ↔ k ≤ row.id := by
  unfold JobFilter.selects pageAt
  by_cases hk : k = 0
  · simp [matchesFilter, hk]
  simp only [matchesFilter, hk, if_false, Option.all_none, Option.all_some, Bool.true_and,
    decide_eq_true_eq]
  show k - 1 < row.id ↔ k ≤ row.id
  have hpred : ∀ a b : Nat, 0 < a → (a - 1 < b ↔ a ≤ b) := by omega
  exact hpred k row.id (Nat.pos_of_ne_zero hk)

instance : Std.Total byIdAsc := ⟨fun a b => Nat.le_total a.id b.id⟩

instance : IsTrans JobRow byIdAsc := ⟨fun _ _ _ hab hbc => Nat.le_trans hab hbc⟩

theorem list_pageAt (hrow : t.find? k = some row) (hs : RowSound row record) :
    list (pageAt k) t = .ok [record] := by
  have hid : row.id = k := key_of_find? hrow
  have hmem : row ∈ t.select (pageAt k).selects :=
    mem_filter.2 ⟨(find?_eq_some_iff.1 hrow).1, (pageAt_selects_iff k row).2 hid.ge⟩
  have hsort : ((t.select (pageAt k).selects).insertionSort byIdAsc).Pairwise byIdAsc :=
    pairwise_insertionSort _ _
  rw [← mem_insertionSort byIdAsc] at hmem
  have hpage : (pageAt k).rows t = [row] := by
    show ((t.select (pageAt k).selects).insertionSort byIdAsc).take 1 = [row]
    cases hlist : (t.select (pageAt k).selects).insertionSort byIdAsc with
    | nil =>
      rw [hlist] at hmem
      cases hmem
    | cons first rest =>
      rw [hlist] at hmem hsort
      -- the first row of the page has the least id the cursor admits
      have hfirst : first ∈ t.rows ∧ (pageAt k).selects first = true := by
        have hin : first ∈ (t.select (pageAt k).selects).insertionSort byIdAsc := by
          rw [hlist]
          exact mem_cons_self
        rw [mem_insertionSort] at hin
        exact mem_filter.1 hin
      have hge : k ≤ first.id := (pageAt_selects_iff k first).1 hfirst.2
      have hle : first.id ≤ row.id := by
        rcases mem_cons.1 hmem with rfl | hrest
        · exact le_rfl
        · exact (pairwise_cons.1 hsort).1 row hrest
      have heq : first.id = k := le_antisymm (hid ▸ hle) hge
      have hfind := find?_of_mem hfirst.1
      rw [heq, hrow] at hfind
      rw [← Option.some.inj hfind]
      rfl
  unfold list
  rw [hpage, mapM_cons, mapM_nil, hs.payload]
  rfl

theorem readsAgree_iff_allInSync (hsound : Sound t) : ReadsAgree t ↔ AllInSync t := by
  constructor
  · intro h k row hrow record hpay
    obtain ⟨record', hs⟩ := hsound k row hrow
    cases hs.record_eq hpay
    have hid : row.id = k := key_of_find? hrow
    have hagree := h.listed (pageAt k) [record] (list_pageAt hrow hs) record (by simp)
    exact (agreesWithGet_iff (by rw [hid]; exact hrow) hs rfl).1 hagree
  · intro h
    refine ⟨?_, ?_, ?_⟩
    · intro filter records hlist r hr
      obtain ⟨row, hrow, hs, hsel⟩ := row_of_mem_list hsound hlist hr
      exact (agreesWithGet_iff hrow hs (selects_tenant hsel)).2 (h _ row hrow r hs.payload)
    · intro filter records st hlist hst r hr
      obtain ⟨row, hrow, hs, hsel⟩ := row_of_mem_list hsound hlist hr
      rw [(h _ row hrow r hs.payload).status]
      exact selects_status hsel hst
    · intro tenant r hlat
      unfold latestJob at hlat
      cases hfirst : t.selectFirst (fun row => matchesFilter tenant row.tenantId) byIdDesc with
      | none =>
        rw [hfirst] at hlat
        cases hlat
      | some row =>
        obtain ⟨hmem, hten⟩ := selectFirst_some hfirst
        have hrow := find?_of_mem hmem
        obtain ⟨record, hs⟩ := hsound _ row hrow
        simp only [hfirst, hs.payload, deserializeRecord] at hlat
        cases hlat
        exact (agreesWithGet_iff hrow hs hten).2 (h _ row hrow r hs.payload)

/-! ## 3. The writes that separate the copies -/

/-- No write of the call separates the two copies of a row: a job is enqueued with no attempts on its
record, a call that writes columns alone matches no row, and `mark_conflict` notes an error that the
record already has. -/
def Call.SyncGuard (t : JobTable) : Call → Prop
  | .enqueue job => t.find? job.id = none → job.retry.count = 0
  | .dequeue clk tenant => ∀ row ∈ t.rows, isReady clk.now tenant row = false
  | .dequeueByKind clk kind tenant =>
    kind ≠ jobKindMessage → ∀ row ∈ t.rows, isReadyOfKind clk.now kind tenant row = false
  | .markConflict _ id note _ =>
    ∀ row record, t.find? id = some row → row.payload = .json record →
      record.retry.lastError = some (truncateChars 256 note)
  | .setPending id => statusIn t id ≠ some .waiting
  | .recoverStaleLeases clk ttl =>
    ∀ d, chronoDuration ttl = some d → ∀ row ∈ t.rows, isStale (clk.now - d) row = false
  | .cancelExpiredDeadlines now => ∀ row ∈ t.rows, isExpired now row = false
  | .scheduleRetry id _ => statusIn t id ≠ some .running
  | .promoteRetry _ _ c =>
    ∀ snapshot, c.payload = .json snapshot → retryExhausted c snapshot = false →
      statusIn t c.id ≠ some .failed
  | .replaySingle _ id => statusIn t id ≠ some .dlq
  | .complete _ _ _ | .completeMessageDelivery _ _ _ | .fail _ _ _ _ | .cancel _ _ _
  | .failDlq _ _ _ | .purgeOneBatch _ _ | .deleteDlqJobs _ => True

def SyncGuard (s : QueueState) (e : Event) : Prop := ∀ c, e.callOf s = some c → c.SyncGuard s.jobs

theorem RowInSync.purged (h : RowInSync row) : RowInSync (purgedRow row) := by
  intro record' hpay'
  cases hpay : row.payload with
  | corrupt text => simp [purgedRow, purgedPayload, hpay, deserializeRecord] at hpay'
  | json record =>
    have hsync : InSync row record := h record hpay
    by_cases hpurge : recordIsPurgeable record = true
    · simp only [purgedRow, purgedPayload, hpay, deserializeRecord, hpurge, if_true,
        serializeRecord, Payload.json.injEq] at hpay'
      rw [← hpay']
      exact ⟨hsync.status, hsync.count, hsync.lastError⟩
    · simp only [purgedRow, purgedPayload, hpay, deserializeRecord, hpurge] at hpay'
      cases hpay'
      exact ⟨hsync.status, hsync.count, hsync.lastError⟩

theorem RowChange.inSync (h : RowChange c row row') (hguard : c.SyncGuard t) (hrow : t.find? k = some row)
    (hsync : RowInSync row) : RowInSync row' := by
  -- the guard of a call that writes columns alone says that it does not match this row
  have hmatched : ∀ {p : JobRow → Bool}, (∀ r ∈ t.rows, p r = false) → p row = true → False := by
    intro p hnone hp
    rw [hnone row (find?_eq_some_iff.1 hrow).1] at hp
    cases hp
  have hfind : t.find? row.id = some row := by
    rw [key_of_find? hrow]
    exact hrow
  have hstat : ∀ {id st}, row.id = id → row.status = st → statusIn t id = some st := by
    rintro id st rfl rfl
    exact statusIn_eq_some_iff.2 ⟨row, hfind, rfl⟩
  cases h with
  | leased _ hready => exact (hmatched hguard hready).elim
  | leasedByKind hkind _ _ hready => exact (hmatched (hguard hkind) hready).elim
  | readied hid hwait => exact absurd (hstat hid hwait) hguard
  | recovered hd hstale _ => exact (hmatched (hguard _ hd) hstale).elim
  | expired hexp _ => exact (hmatched hguard hexp).elim
  | rescheduled hid hrun => exact absurd (hstat hid hrun) hguard
  | retried hsnap hexh hid hfail =>
    exact absurd (hstat hid hfail) (hguard _ hsnap hexh)
  | replayed hid hdlq => exact absurd (hstat hid hdlq) hguard
  | purged _ => exact hsync.purged
  | completed _ _ hpay | delivered _ _ _ hpay | cancelled _ _ hpay =>
    have hs := hsync _ hpay
    rintro record' ⟨⟩
    exact ⟨rfl, hs.count, hs.lastError⟩
  | failed _ _ hpay =>
    rintro record' ⟨⟩
    exact ⟨rfl, UInt32.ofNat_toNat.symm, fun _ h => h⟩
  | deadLettered _ hpay | exhausted _ _ _ hpay =>
    have hs := hsync _ hpay
    rintro record' ⟨⟩
    exact ⟨rfl, hs.count, fun _ h => h⟩
  | conflicted hid hpay =>
    have hs := hsync _ hpay
    have herr := hguard row _ (hid ▸ hfind) hpay
    rintro record' ⟨⟩
    exact ⟨rfl, hs.count, fun err h => herr.trans h⟩

theorem AllInSync.step (h : AllInSync s.jobs) (hguard : SyncGuard s e) : AllInSync (step s e).jobs := by
  intro k row' hrow'
  cases hrow : s.jobs.find? k with
  | none =>
    obtain ⟨job, rfl, rfl⟩ := find?_step_new hrow hrow'
    have hid : (rowOfRecord job).id = k := key_of_find? hrow'
    rw [← hid] at hrow
    rintro record' ⟨⟩
    exact ⟨rfl, hguard _ rfl hrow, nofun⟩
  | some row =>
    rw [find?_step_of_some hrow] at hrow'
    cases hc : e.callOf s with
    | none =>
      rw [hc] at hrow'
      cases hrow'
      exact h k _ hrow
    | some c =>
      rw [hc] at hrow'
      rcases Call.onRow_cases hrow hrow' with rfl | hchg
      · exact h k _ hrow
      · exact hchg.inSync (hguard c hc) hrow (h k row hrow)

theorem exists_leased (clk : Clock) (hmem : row ∈ t.rows) (helig : eligible row = true) :
    ∃ first, t.find? first.id = some first ∧ eligible first = true ∧
      leasedRow t clk eligible first = leaseRow clk first := by
  cases hfirst : t.selectFirst eligible dequeueOrder with
  | none =>
    rw [selectFirst_eq_none_iff.1 hfirst row hmem] at helig
    cases helig
  | some first =>
    obtain ⟨hin, hready⟩ := selectFirst_some hfirst
    exact ⟨first, find?_of_mem hin, hready, by simp [leasedRow, hfirst]⟩

theorem syncGuard_of_step (hsound : Sound s.jobs) (h : AllInSync s.jobs)
    (hafter : AllInSync (step s e).jobs) : SyncGuard s e := by
  intro c hc
  have hon : ∀ {k row row'}, s.jobs.find? k = some row → c.onRow s.jobs row = some row' →
      RowInSync row' := by
    intro k row row' hrow hrow'
    apply hafter k row'
    rw [find?_step_of_some hrow, hc]
    exact hrow'
  -- a write of columns alone does not change the status
  have hcols : ∀ {k row row'}, s.jobs.find? k = some row → c.onRow s.jobs row = some row' →
      row'.payload = row.payload → row'.status = row.status := by
    intro k row row' hrow hrow' hpay
    obtain ⟨record, hs⟩ := hsound k row hrow
    have hbef := (h k row hrow record hs.payload).status
    have hthen := (hon hrow hrow' record (hpay.trans hs.payload)).status
    exact hthen.symm.trans hbef
  have hleas : ∀ {eligible : JobRow → Bool} {row : JobRow} (clk : Clock),
      (∀ r, eligible r = true → r.status = .pending) →
      (∀ r, c.onRow s.jobs r = some (leasedRow s.jobs clk eligible r)) →
      row ∈ s.jobs.rows → eligible row = false := by
    intro eligible row clk hpend hcall hmem
    rw [← not_eq_true]
    intro helig
    obtain ⟨first, hfirst, hready, hlease⟩ := exists_leased clk hmem helig
    have hrun := hcols hfirst ((hcall first).trans (congrArg some hlease)) rfl
    rw [hpend first hready] at hrun
    cases hrun
  have hrows : ∀ {p : JobRow → Bool} {f : JobRow → JobRow} {row : JobRow},
      (∀ r, (f r).payload = r.payload) → (∀ r, p r = true → (f r).status ≠ r.status) →
      (∀ r, c.onRow s.jobs r = some (if p r = true then f r else r)) →
      row ∈ s.jobs.rows → p row = false := by
    intro p f row hpay hstat hcall hmem
    rw [← not_eq_true]
    intro hp
    have hset := hcall row
    rw [if_pos hp] at hset
    exact hstat row hp (hcols (find?_of_mem hmem) hset (hpay row))
  have hone : ∀ {id : Ulid} {st : JobStatus} {f : JobRow → JobRow},
      (∀ r, (f r).payload = r.payload) → (∀ r, (f r).status ≠ st) →
      (∀ r, c.onRow s.jobs r = some (if r.id = id ∧ r.status = st then f r else r)) →
      statusIn s.jobs id ≠ some st := by
    intro id st f hpay hstat hcall hst
    obtain ⟨row, hrow, hst⟩ := statusIn_eq_some_iff.1 hst
    have hset := hcall row
    rw [if_pos ⟨key_of_find? hrow, hst⟩] at hset
    exact hstat row ((hcols hrow hset (hpay row)).trans hst)
  cases c with
  | enqueue job =>
    intro hfree
    have hnew : (step s e).jobs.find? job.id = some (rowOfRecord job) := by
      simp [find?_step_of_none hfree, hc, Call.inserts]
    exact (hafter job.id _ hnew job rfl).count
  | dequeue clk tenant =>
    exact fun row hmem => hleas clk (fun r => isReady_pending) (fun _ => rfl) hmem
  | dequeueByKind clk kind tenant =>
    intro hkind row hmem
    refine hleas clk (fun r hready => ?_) (fun r => ?_) hmem
    · simp only [isReadyOfKind, and_eq_true] at hready
      exact isReady_pending hready.1
    · simp [Call.onRow, hkind]
  | markConflict clk id note durationMs =>
    intro row record hrow hpay
    have hwrit : (Call.markConflict clk id note durationMs).onRow s.jobs row =
        some (conflictRow clk note durationMs row record) := by
      simp [Call.onRow, patchedRow, key_of_find? hrow, hpay, deserializeRecord,
        conflictRow]
    exact (hon hrow hwrit _ rfl).lastError _ rfl
  | setPending id => exact hone (f := readyRow) (fun _ => rfl) (fun _ h => by cases h) (fun _ => rfl)
  | recoverStaleLeases clk ttl =>
    intro d hd row hmem
    refine hrows (f := recoveredRow clk.again) (fun _ => rfl) (fun r hstale hsame => ?_)
      (fun r => ?_) hmem
    · simp only [isStale, and_eq_true, decide_eq_true_eq] at hstale
      rw [hstale.1] at hsame
      cases hsame
    · simp [Call.onRow, hd]
  | cancelExpiredDeadlines now =>
    intro row hmem
    refine hrows (f := expiredRow now) (fun _ => rfl) (fun r hexp hsame => ?_)
      (fun _ => rfl) hmem
    simp only [isExpired, and_eq_true, not_eq_true'] at hexp
    rw [← hsame] at hexp
    cases hexp.2
  | scheduleRetry id retryAt =>
    exact hone (f := rescheduledRow retryAt) (fun _ => rfl) (fun _ h => by cases h) (fun _ => rfl)
  | promoteRetry clk now c =>
    intro snapshot hsnap hexh
    refine hone (f := retriedRow now) (fun _ => rfl) (fun _ h => by cases h) (fun r => ?_)
    simp [Call.onRow, hsnap, deserializeRecord, hexh]
  | replaySingle now id =>
    exact hone (f := replayedRow now) (fun _ => rfl) (fun _ h => by cases h) (fun _ => rfl)
  | _ => trivial

/-! ## 4. Whole runs -/

structure SyncedState (s : QueueState) : Prop where
  sound : Sound s.jobs
  inSync : AllInSync s.jobs

theorem syncedState_initial (variableLimit : Nat) : SyncedState (.initial variableLimit) where
  sound := sound_initial variableLimit
  inSync := fun _ _ h => by cases h

theorem syncedState_step_iff (h : SyncedState s) (e : Event) : SyncedState (step s e) ↔ SyncGuard s e := by
  constructor
  · exact fun hafter => syncGuard_of_step h.sound h.inSync hafter.inSync
  · exact fun hguard => ⟨h.sound.step e, h.inSync.step hguard⟩

/-- The reads agree in every state of a run from the empty table just when none of its steps separates
the two copies of a row. -/
theorem readsAgree_iff_syncGuard (variableLimit : Nat) (es : List Event) :
    Always step (fun s => ReadsAgree s.jobs) (.initial variableLimit) es ↔
      EachStep step SyncGuard (.initial variableLimit) es := by
  have hinit := syncedState_initial variableLimit
  have hrun : Always step (fun s => ReadsAgree s.jobs) (.initial variableLimit) es ↔
      Always step SyncedState (.initial variableLimit) es := by
    refine forall_congr' fun pre => imp_congr_right fun _ => ?_
    have hsound : Sound (run step (.initial variableLimit) pre).jobs := hinit.sound.run pre
    apply (readsAgree_iff_allInSync hsound).trans
    exact ⟨fun h => ⟨hsound, h⟩, fun h => h.inSync⟩
  rw [hrun, always_iff_eachStep, and_iff_right hinit]
  exact eachStep_iff_of_inv hinit (fun _ _ _ h => h) fun s e h => syncedState_step_iff h e

def leasedRun : List Event :=
  [.call (.enqueue (makeRecord 1 .summarize .pending)),
   .call (.dequeueByKind (.at 0) "Summarize" none)]

theorem not_readsAgree_leasedRun :
    ¬ Always step (fun s => ReadsAgree s.jobs) (.initial 999) leasedRun := by
  intro h
  have hagree := h leasedRun (prefix_refl _)
  have hlist : list { pageAt 1 with status := some .running } (run step (.initial 999) leasedRun).jobs =
      .ok [makeRecord 1 .summarize .pending] := rfl
  have hstat := hagree.filtered _ _ .running hlist rfl _ mem_cons_self
  cases hstat

end Gradatum.Queue
