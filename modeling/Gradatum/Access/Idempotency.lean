import Gradatum.Access.Jobs
import Gradatum.Reasoning.Run

/-!
# Idempotency keys

A call of `create_job` looks its key up, enqueues its job and inserts the key, and other calls come in
between.  The system keeps the jobs that were created and the answers that were given.
-/

open Reasoning

namespace Gradatum.Access

open List

open Notes (VaultId)
open Queue (Ulid JobRecord JobTable enqueue rowOfRecord)

/-! ## 1. Calls in any order -/

inductive CallStage where
  | enqueue (record : JobRecord)
  | insert (id : Ulid)

structure CallInFlight where
  tenant : VaultId
  key : String
  stage : CallStage

/-- A job as it was created for a call, or as a call was answered with it. -/
structure KeyedJob where
  tenant : VaultId
  key : String
  id : Ulid
  deriving DecidableEq

structure JobsSystem where
  /-- The table `gradatum_idempotency`. -/
  keys : String → Option Ulid
  jobs : JobTable
  inFlight : List CallInFlight
  created : List KeyedJob
  answers : List KeyedJob

inductive JobEvent where
  | lookup (call : JobCall)
  | enqueue (index : Nat)
  | insert (index : Nat)

/-- `INSERT OR IGNORE`. -/
def idempotencyInsert (key : String) (id : Ulid) (keys : String → Option Ulid) : String → Option Ulid :=
  if (keys key).isSome then keys else Function.update keys key (some id)

namespace JobsApi

variable (api : JobsApi)

def caller (call : JobCall) : Option (VaultId × String) := do
  let tenant ← (api.policy.createJobTenant call.trust).toOption
  let key ← (idempotencyKey call.header).toOption
  return (tenant, key)

def knownAnswer (keys : String → Option Ulid) (call : JobCall) : Option KeyedJob :=
  match api.prepareJob keys call with
  | .error (.known id) => (api.caller call).map fun (tenant, key) => ⟨tenant, key, id⟩
  | _ => none

def jobStep (s : JobsSystem) : JobEvent → JobsSystem
  | .lookup call =>
    match api.prepareJob s.keys call with
    | .ok (tenant, key, record) => { s with inFlight := s.inFlight ++ [⟨tenant, key, .enqueue record⟩] }
    | .error _ => { s with answers := s.answers ++ (api.knownAnswer s.keys call).toList }
  | .enqueue index =>
    match s.inFlight[index]? with
    | some ⟨tenant, key, .enqueue record⟩ =>
      match enqueue record s.jobs with
      | (.ok id, jobs) =>
        { s with
          jobs := jobs
          inFlight := s.inFlight.eraseIdx index ++ [⟨tenant, key, .insert id⟩]
          created := s.created ++ [⟨tenant, key, id⟩] }
      | (.error _, _) => { s with inFlight := s.inFlight.eraseIdx index }
    | _ => s
  | .insert index =>
    match s.inFlight[index]? with
    | some ⟨tenant, key, .insert id⟩ =>
      -- the caller does not look at whether the key was inserted
      { s with
        keys := idempotencyInsert key id s.keys
        inFlight := s.inFlight.eraseIdx index
        answers := s.answers ++ [⟨tenant, key, id⟩] }
    | _ => s

def start (jobs : JobTable) : JobsSystem := ⟨fun _ => none, jobs, [], [], []⟩

/-- One job for each tenant and key; a call is answered with the job of its tenant and key, and with no job
of another tenant. -/
structure Idempotent (s : JobsSystem) : Prop where
  once : (s.created.map fun job => (job.tenant, job.key)).Nodup
  answered : ∀ answer ∈ s.answers, answer ∈ s.created
  own : ∀ answer ∈ s.answers, ∀ job ∈ s.created, job.id = answer.id → job.tenant = answer.tenant

/-- A call comes in when no other call with its key is under way, and under a key that no other tenant has
used. -/
def safeCall (s : JobsSystem) : JobEvent → Bool
  | .lookup call => (api.caller call).all fun (tenant, key) =>
    s.inFlight.all (·.key ≠ key) && s.created.all fun job => job.key ≠ key || job.tenant = tenant
  | _ => true

structure KeysTracked (s : JobsSystem) : Prop where
  stored : ∀ key id, s.keys key = some id → ∃ job ∈ s.created, job.key = key ∧ job.id = id
  covered : ∀ job ∈ s.created,
    s.keys job.key = some job.id ∨ ⟨job.tenant, job.key, .insert job.id⟩ ∈ s.inFlight
  waiting : ∀ call ∈ s.inFlight, ∀ record, call.stage = .enqueue record →
    ∀ job ∈ s.created, job.key ≠ call.key
  inserting : ∀ call ∈ s.inFlight, ∀ id, call.stage = .insert id →
    ⟨call.tenant, call.key, id⟩ ∈ s.created
  apart : (s.inFlight.map (·.key)).Nodup
  keyed : (s.created.map (·.key)).Nodup
  listed : ∀ job ∈ s.created, job.id ∈ s.jobs.rows.map (·.id)
  ids : (s.created.map (·.id)).Nodup
  answered : ∀ answer ∈ s.answers, answer ∈ s.created

theorem keysTracked_start (jobs : JobTable) : KeysTracked (start jobs) where
  stored := by
    intro key id h
    cases h
  covered := by
    intro job h
    cases h
  waiting := by
    intro call h
    cases h
  inserting := by
    intro call h
    cases h
  apart := nodup_nil
  keyed := nodup_nil
  listed := by
    intro job h
    cases h
  ids := nodup_nil
  answered := by
    intro answer h
    cases h

theorem KeysTracked.idempotent (h : KeysTracked s) : Idempotent s where
  once := by
    apply List.Nodup.of_map Prod.snd
    rw [List.map_map]
    exact h.keyed
  answered := h.answered
  own := by
    intro answer hans job hjob hid
    rw [inj_on_of_nodup_map h.ids hjob (h.answered answer hans) hid]

/-! ## 2. Steps -/

section Steps

variable {api : JobsApi} {s : JobsSystem}

theorem caller_eq_some (hten : api.policy.createJobTenant call.trust = .ok tenant)
    (hkey : idempotencyKey call.header = .ok key) : api.caller call = some (tenant, key) := by
  rw [caller, hten, hkey]
  rfl

theorem prepareJob_known {keys : String → Option Ulid} {id : Ulid}
    (h : api.prepareJob keys call = .error (.known id)) :
    ∃ tenant key, api.caller call = some (tenant, key) ∧ keys key = some id := by
  simp only [prepareJob, bind_eq_error_iff, mapError_eq_ok_iff] at h
  rcases h with hten | ⟨tenant, hten, hkey | ⟨key, hkey, hpool | ⟨_, -, hlook | ⟨_, -, hrec |
    ⟨_, -, hforged | ⟨_, -, hpure⟩⟩⟩⟩⟩⟩
  · cases (error_of_mapError hten).choose_spec
  · cases (error_of_mapError hkey).choose_spec
  · cases error_of_require hpool
  · refine ⟨tenant, key, caller_eq_some hten hkey, ?_⟩
    unfold lookupKey at hlook
    split at hlook
    · rename_i found hfound
      cases hlook
      exact hfound
    · cases hlook
  · cases (error_of_mapError hrec).choose_spec
  · cases (error_of_mapError hforged).choose_spec
  · cases hpure

theorem enqueue_ok {id : Ulid} (h : enqueue record jobs = (.ok id, jobs')) :
    id = record.id ∧ id ∉ jobs.rows.map (·.id) ∧ jobs'.rows = jobs.rows ++ [rowOfRecord record] := by
  unfold enqueue at h
  split at h
  · cases h
  rename_i table hins
  cases h
  unfold Table.insert at hins
  split at hins
  · cases hins
  rename_i hfree
  cases hins
  exact ⟨rfl, hfree, rfl⟩

theorem KeysTracked.unused (h : KeysTracked s) (hnone : s.keys key = none)
    (hidle : ∀ call ∈ s.inFlight, call.key ≠ key) : ∀ job ∈ s.created, job.key ≠ key := by
  rintro job hjob rfl
  rcases h.covered job hjob with hstor | hcall
  · rw [hnone] at hstor
    cases hstor
  · exact hidle _ hcall rfl

theorem nodup_map_concat (h : (l.map f).Nodup) (ha : ∀ b ∈ l, f b ≠ f a) : ((l ++ [a]).map f).Nodup := by
  rw [map_append]
  apply h.append (nodup_singleton _)
  rw [disjoint_singleton, List.mem_map]
  rintro ⟨b, hb, heq⟩
  exact ha b hb heq

theorem keysTracked_lookup (h : KeysTracked s) (hsafe : api.safeCall s (.lookup call) = true) :
    KeysTracked (api.jobStep s (.lookup call)) := by
  simp only [safeCall, Option.all_eq_true] at hsafe
  rw [jobStep]
  split
  · rename_i tenant key record hprep
    obtain ⟨hten, hkey, hnone, -⟩ := prepareJob_ok hprep
    have hidle := hsafe (tenant, key) (caller_eq_some hten hkey)
    simp only [Bool.and_eq_true, List.all_eq_true, decide_eq_true_eq] at hidle
    refine { h with
      covered := fun job hjob => (h.covered job hjob).imp_right (mem_append_left _)
      waiting := ?_
      inserting := ?_
      apart := ?_ }
    · intro call hcall record hstage
      rcases mem_append.1 hcall with hold | hnew
      · exact h.waiting call hold record hstage
      · rw [mem_singleton.1 hnew]
        exact h.unused hnone hidle.1
    · intro call hcall id hstage
      rcases mem_append.1 hcall with hold | hnew
      · exact h.inserting call hold id hstage
      · rw [mem_singleton.1 hnew] at hstage
        cases hstage
    · exact nodup_map_concat h.apart hidle.1
  · refine { h with answered := ?_ }
    intro answer hans
    rcases mem_append.1 hans with hold | hnew
    · exact h.answered answer hold
    rw [Option.mem_toList, knownAnswer] at hnew
    split at hnew
    · rename_i id hknown
      obtain ⟨tenant, key, hcalle, hfound⟩ := prepareJob_known hknown
      rw [hcalle, Option.map_some, Option.some.injEq] at hnew
      obtain ⟨job, hjob, rfl, rfl⟩ := h.stored key id hfound
      have hused := hsafe (tenant, job.key) hcalle
      simp only [Bool.and_eq_true, List.all_eq_true, Bool.or_eq_true, decide_eq_true_eq] at hused
      have hten : job.tenant = tenant := (hused.2 job hjob).resolve_left (not_not.2 rfl)
      rw [← hnew, ← hten]
      exact hjob
    · cases hnew

theorem mem_eraseIdx_of_ne {calls : List CallInFlight} (hcall : calls[index]? = some call)
    (hother : other ∈ calls) (hne : other ≠ call) : other ∈ calls.eraseIdx index := by
  obtain ⟨j, hj⟩ := mem_iff_getElem?.1 hother
  refine mem_eraseIdx_iff_getElem?.2 ⟨j, ?_, hj⟩
  rintro rfl
  rw [hcall] at hj
  exact hne (Option.some.inj hj).symm

theorem key_ne_of_mem_eraseIdx {calls : List CallInFlight}
    (hapart : (calls.map (·.key)).Nodup) (hcall : calls[index]? = some call)
    (hother : other ∈ calls.eraseIdx index) : other.key ≠ call.key := by
  obtain ⟨j, hne, hj⟩ := mem_eraseIdx_iff_getElem?.1 hother
  intro hkey
  have hlt : j < (calls.map (·.key)).length := by
    rw [length_map]
    exact (List.getElem?_eq_some_iff.1 hj).1
  have hsame : (calls.map (·.key))[j]? = (calls.map (·.key))[index]? := by
    rw [getElem?_map, getElem?_map, hj, hcall, Option.map_some, Option.map_some, hkey]
  exact hne ((getElem?_inj hlt hapart).1 hsame)

theorem keysTracked_enqueue (h : KeysTracked s) (index : Nat) :
    KeysTracked (api.jobStep s (.enqueue index)) := by
  rw [jobStep]
  split
  · rename_i tenant key record hcall
    have hfree : ∀ job ∈ s.created, job.key ≠ key :=
      h.waiting ⟨tenant, key, .enqueue record⟩ (mem_of_getElem? hcall) record rfl
    have hkept : ∀ job ∈ s.created, s.keys job.key = some job.id ∨
        ⟨job.tenant, job.key, .insert job.id⟩ ∈ s.inFlight.eraseIdx index := by
      intro job hjob
      refine (h.covered job hjob).imp_right fun hmem => mem_eraseIdx_of_ne hcall hmem ?_
      intro heq
      cases heq
    have hapart : ((s.inFlight.eraseIdx index).map (·.key)).Nodup :=
      h.apart.sublist ((eraseIdx_sublist _ _).map _)
    split
    · rename_i id jobs hjobs
      obtain ⟨rfl, hfresh, hrows⟩ := enqueue_ok hjobs
      have hoth : ∀ call ∈ s.inFlight.eraseIdx index, call.key ≠ key := fun call hmem =>
        key_ne_of_mem_eraseIdx h.apart hcall hmem
      constructor
      case stored =>
        intro key' id hstor
        obtain ⟨job, hjob, hsame⟩ := h.stored key' id hstor
        exact ⟨job, mem_append_left _ hjob, hsame⟩
      case covered =>
        intro job hjob
        rcases mem_append.1 hjob with hold | hnew
        · exact (hkept job hold).imp_right (mem_append_left _)
        · rw [mem_singleton.1 hnew]
          exact .inr (mem_append_right _ mem_cons_self)
      case waiting =>
        intro call hmem record' hstage job hjob
        rcases mem_append.1 hmem with hold | hnew
        · rcases mem_append.1 hjob with hjob | hjob
          · exact h.waiting call (mem_of_mem_eraseIdx hold) record' hstage job hjob
          · rw [mem_singleton.1 hjob]
            exact (hoth call hold).symm
        · rw [mem_singleton.1 hnew] at hstage
          cases hstage
      case inserting =>
        intro call hmem id hstage
        rcases mem_append.1 hmem with hold | hnew
        · exact mem_append_left _ (h.inserting call (mem_of_mem_eraseIdx hold) id hstage)
        rw [mem_singleton.1 hnew] at hstage ⊢
        cases hstage
        exact mem_append_right _ mem_cons_self
      case apart => exact nodup_map_concat hapart hoth
      case keyed => exact nodup_map_concat h.keyed hfree
      case listed =>
        intro job hjob
        rw [hrows, map_append, mem_append]
        rcases mem_append.1 hjob with hold | hnew
        · exact .inl (h.listed job hold)
        · rw [mem_singleton.1 hnew]
          exact .inr mem_cons_self
      case ids =>
        apply nodup_map_concat h.ids
        intro job hjob heq
        have hid : job.id = record.id := heq
        rw [← hid] at hfresh
        exact hfresh (h.listed job hjob)
      case answered =>
        exact fun answer hans => mem_append_left _ (h.answered answer hans)
    · exact { h with
        covered := hkept
        waiting := fun call hmem => h.waiting call (mem_of_mem_eraseIdx hmem)
        inserting := fun call hmem => h.inserting call (mem_of_mem_eraseIdx hmem)
        apart := hapart }
  · exact h

theorem keysTracked_insert (h : KeysTracked s) (index : Nat) :
    KeysTracked (api.jobStep s (.insert index)) := by
  rw [jobStep]
  split
  · rename_i tenant key id hcall
    have hjob : ⟨tenant, key, id⟩ ∈ s.created :=
      h.inserting ⟨tenant, key, .insert id⟩ (mem_of_getElem? hcall) id rfl
    -- a key that is in the table already is that of the same job
    have hkeys : ∀ key',
        idempotencyInsert key id s.keys key' = if key' = key then some id else s.keys key' := by
      intro key'
      unfold idempotencyInsert
      split
      · rename_i hsome
        obtain ⟨found, hfound⟩ := Option.isSome_iff_exists.1 hsome
        obtain ⟨job, hmem, hkey, hid⟩ := h.stored key found hfound
        have heq : job = ⟨tenant, key, id⟩ := inj_on_of_nodup_map h.keyed hmem hjob hkey
        rw [heq] at hid
        split
        · rename_i hsame
          rw [hsame, hfound, ← hid]
        · rfl
      · rw [Function.update_apply]
    constructor
    case stored =>
      intro key' id' hstor
      dsimp only at hstor
      rw [hkeys] at hstor
      split at hstor
      · rename_i hsame
        cases hstor
        exact ⟨_, hjob, hsame.symm, rfl⟩
      · exact h.stored key' id' hstor
    case covered =>
      intro job hmem
      dsimp only
      rw [hkeys]
      split
      · rename_i hsame
        have heq : job = ⟨tenant, key, id⟩ := inj_on_of_nodup_map h.keyed hmem hjob hsame
        rw [heq]
        exact .inl rfl
      · rename_i hother
        refine (h.covered job hmem).imp_right fun hcall' => mem_eraseIdx_of_ne hcall hcall' ?_
        intro heq
        exact hother (congrArg CallInFlight.key heq)
    case waiting => exact fun call hmem => h.waiting call (mem_of_mem_eraseIdx hmem)
    case inserting => exact fun call hmem => h.inserting call (mem_of_mem_eraseIdx hmem)
    case apart => exact h.apart.sublist ((eraseIdx_sublist _ _).map _)
    case keyed => exact h.keyed
    case listed => exact h.listed
    case ids => exact h.ids
    case answered =>
      intro answer hans
      rcases mem_append.1 hans with hold | hnew
      · exact h.answered answer hold
      · rw [mem_singleton.1 hnew]
        exact hjob
  · exact h

theorem idempotent_of_safe (jobs : JobTable) {es : List JobEvent}
    (hsafe : EachStep api.jobStep (fun s e => api.safeCall s e = true) (start jobs) es) :
    Always api.jobStep Idempotent (start jobs) es := by
  intro pre hpre
  apply KeysTracked.idempotent
  refine hsafe.always (keysTracked_start jobs) ?_ pre hpre
  intro s e hs he
  cases e with
  | lookup call => exact keysTracked_lookup hs he
  | enqueue index => exact keysTracked_enqueue hs index
  | insert index => exact keysTracked_insert hs index

end Steps

end JobsApi

/-! ## 3. Two calls with one key -/

def purgeCall (tenant : VaultId) (fresh : Ulid) : JobCall :=
  ⟨bearerOf tenant, some "nightly", ⟨some (.ok .purge)⟩, fresh, 0⟩

def plainJobsApi : JobsApi := ⟨plainPolicy, true⟩

/-- The second call finds the key of the first. -/
theorem idempotent_repeatedCall : Always plainJobsApi.jobStep JobsApi.Idempotent (JobsApi.start .empty)
    [.lookup (purgeCall "main" 1), .enqueue 0, .insert 0, .lookup (purgeCall "main" 2)] :=
  JobsApi.idempotent_of_safe .empty
    ⟨by decide +kernel, by decide +kernel, by decide +kernel, by decide +kernel, trivial⟩

/-- A call that comes in before the key of the first is inserted creates a second job, and the key of one
tenant answers a call of another. -/
theorem not_idempotent_sharedKey :
    ¬ Always plainJobsApi.jobStep JobsApi.Idempotent (JobsApi.start .empty)
        [.lookup (purgeCall "main" 1), .lookup (purgeCall "main" 2), .enqueue 0, .enqueue 0] ∧
      ¬ Always plainJobsApi.jobStep JobsApi.Idempotent (JobsApi.start .empty)
        [.lookup (purgeCall "alice" 1), .enqueue 0, .insert 0, .lookup (purgeCall "bob" 2)] := by
  constructor
  · intro h
    have honce := (h _ prefix_rfl).once
    revert honce
    decide +kernel
  · intro h
    have hown := (h _ prefix_rfl).own ⟨"bob", "nightly", 1⟩ (by decide +kernel)
      ⟨"alice", "nightly", 1⟩ (by decide +kernel) rfl
    revert hown
    decide

end Gradatum.Access
