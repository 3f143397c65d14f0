import Gradatum.Reasoning.Run
import Gradatum.Notes.Query
import Gradatum.ProjectMap.Export

/-!
# Feature numbers

The next number of `allocate_feature_number` is one more than the greater of the counter that is stored and
the greatest number that a card of the vault names.
-/

open Reasoning

namespace Gradatum.ProjectMap

open Notes List Function Bool

/-! ## 1. The numbers of a body -/

/-- The identifier that one of the three roles of features names. -/
def ProjectMapLink.featureId : ProjectMapLink → Option String
  | .feature id | .supersedes id | .parent id => some id
  | _ => none

/-- `strip_prefix("F-")` and `parse::<u32>`. -/
def featureNumber (id : String) : Option Nat :=
  match id.toList with
  | 'F' :: '-' :: digits => parseU32 digits
  | _ => none

section Body

variable (parseUlid : String → Option NoteId)

def featureNumbers (body : String) : List Nat :=
  (structuralLinks parseUlid body).filterMap fun link => link.featureId.bind featureNumber

def maxFeatureNumber (body : String) : Option Nat := (featureNumbers parseUlid body).max?

end Body

def decimal (digits : List Char) : Nat := digits.foldl (fun n c => 10 * n + (c.toNat - '0'.toNat)) 0

def NamesFeature (parseUlid : String → Option NoteId) (body : String) (n : Nat) : Prop :=
  ∃ link ∈ structuralLinks parseUlid body, ∃ id digits,
    link.featureId = some id ∧ id.toList = 'F' :: '-' :: digits ∧ decimal digits = n

section Parsed

variable {raw id body : String}

theorem isFeatureIdent_of_parseLink (h : parseLink parseUlid raw = .ok link)
    (hid : link.featureId = some id) : isFeatureIdent id = true := by
  have hread := parseLink_readFrom h
  cases link with
  | feature _ | supersedes _ | parent _ =>
    rw [ProjectMapLink.ReadFrom] at hread
    rw [← Option.some.inj hid, hread.1, hread.2]
  | _ => cases hid

theorem digit_le {c : Char} (h : c.isDigit = true) : c.toNat - '0'.toNat ≤ 9 := by
  simp only [Char.isDigit, and_eq_true, decide_eq_true_eq] at h
  have hle : c.toNat ≤ '9'.toNat := h.2
  have hnine : '9'.toNat = 57 := rfl
  have hzero : '0'.toNat = 48 := rfl
  omega

theorem decimal_lt (hlen : digits.length = 2 ∨ digits.length = 3)
    (hdigs : digits.all Char.isDigit = true) : decimal digits < 1000 := by
  match digits, hlen with
  | [a, b], _ =>
    simp only [all_cons, and_eq_true] at hdigs
    have ha := digit_le hdigs.1
    have hb := digit_le hdigs.2.1
    simp only [decimal, foldl_cons, foldl_nil]
    omega
  | [a, b, c], _ =>
    simp only [all_cons, and_eq_true] at hdigs
    have ha := digit_le hdigs.1
    have hb := digit_le hdigs.2.1
    have hc := digit_le hdigs.2.2.1
    simp only [decimal, foldl_cons, foldl_nil]
    omega

theorem parseU32_eq_some (hne : digits ≠ []) (hdigs : digits.all Char.isDigit = true)
    (hlt : decimal digits < 2 ^ 32) : parseU32 digits = some (decimal digits) := by
  unfold parseU32
  dsimp only
  split
  · -- a sign is not a digit
    simp [Char.isDigit] at hdigs
  · exact if_pos ⟨hne, hdigs, hlt⟩

theorem featureNumber_of_isFeatureIdent (h : isFeatureIdent id = true)
    (hid : id.toList = 'F' :: '-' :: digits) :
    decimal digits < 1000 ∧ featureNumber id = some (decimal digits) := by
  unfold isFeatureIdent at h
  rw [hid] at h
  simp only [and_eq_true, or_eq_true, decide_eq_true_eq] at h
  obtain ⟨hlen, hdigs⟩ := h
  have hlt := decimal_lt hlen hdigs
  refine ⟨hlt, ?_⟩
  have hne : digits ≠ [] := by
    rintro rfl
    simp at hlen
  unfold featureNumber
  rw [hid]
  exact parseU32_eq_some hne hdigs (by omega)

theorem exists_digits_of_isFeatureIdent (h : isFeatureIdent id = true) :
    ∃ digits, id.toList = 'F' :: '-' :: digits := by
  unfold isFeatureIdent at h
  split at h
  · rename_i digits hid
    exact ⟨digits, hid⟩
  · cases h

theorem isFeatureIdent_of_mem (hlink : link ∈ structuralLinks parseUlid body)
    (hid : link.featureId = some id) : isFeatureIdent id = true := by
  simp only [structuralLinks, parsedLinks, mem_filterMap, toOption_eq_some_iff] at hlink
  obtain ⟨raw, -, hraw⟩ := hlink
  exact isFeatureIdent_of_parseLink hraw hid

theorem mem_featureNumbers : n ∈ featureNumbers parseUlid body ↔ NamesFeature parseUlid body n := by
  unfold featureNumbers NamesFeature
  rw [mem_filterMap]
  constructor
  · rintro ⟨link, hlink, hn⟩
    obtain ⟨id, hid, hnum⟩ := Option.bind_eq_some_iff.1 hn
    have hident := isFeatureIdent_of_mem hlink hid
    obtain ⟨digits, hdigs⟩ := exists_digits_of_isFeatureIdent hident
    have hpars := (featureNumber_of_isFeatureIdent hident hdigs).2
    exact ⟨link, hlink, id, digits, hid, hdigs, Option.some.inj (hpars.symm.trans hnum)⟩
  · rintro ⟨link, hlink, id, digits, hid, hdigs, rfl⟩
    have hident := isFeatureIdent_of_mem hlink hid
    refine ⟨link, hlink, ?_⟩
    rw [hid, Option.bind_some]
    exact (featureNumber_of_isFeatureIdent hident hdigs).2

theorem NamesFeature.lt (h : NamesFeature parseUlid body n) : n < 1000 := by
  obtain ⟨link, hlink, id, digits, hid, hdigs, rfl⟩ := h
  exact (featureNumber_of_isFeatureIdent (isFeatureIdent_of_mem hlink hid) hdigs).1

theorem maxFeatureNumber_eq_some (h : maxFeatureNumber parseUlid body = some n) :
    NamesFeature parseUlid body n ∧ ∀ m, NamesFeature parseUlid body m → m ≤ n := by
  have hmax := max?_eq_some_iff.1 h
  exact ⟨mem_featureNumbers.1 hmax.1, fun m hm => hmax.2 m (mem_featureNumbers.2 hm)⟩

theorem maxFeatureNumber_eq_none (h : maxFeatureNumber parseUlid body = none) (n : Nat) :
    ¬ NamesFeature parseUlid body n := by
  intro hn
  have hmem := mem_featureNumbers.2 hn
  rw [max?_eq_none_iff.1 h] at hmem
  cases hmem

end Parsed

/-! ## 2. The allocator -/

structure FeatureIndex where
  notes : IndexedVault
  counters : VaultId → Option Int64

inductive Stage where
  | begin
  | select
  | derivePrepare
  | deriveQuery
  | deriveRow
  | upsert
  | commit

def Stage.text : Stage → String
  | .begin => "BEGIN"
  | .select => "select"
  | .derivePrepare => "derive prepare"
  | .deriveQuery => "derive query"
  | .deriveRow => "derive row"
  | .upsert => "upsert"
  | .commit => "COMMIT"

abbrev Faults := Stage → Option String

def Faults.pass (faults : Faults) (stage : Stage) : Except String Unit :=
  match faults stage with
  | none => .ok ()
  | some e => .error ("allocate_feature_number " ++ stage.text ++ ": " ++ e)

/-- The bodies of the cards of a vault.  The ids of the `__sentinel__` rows are not ULIDs. -/
def cardBodies (v : IndexedVault) (vault : VaultId) : List String :=
  v.keys.filterMap fun key =>
    if key.vault = vault then
      ((v.state.notes key).filter fun row => row.section = .projectMap).map (·.bodyText)
    else none

namespace FeatureIndex

variable (parseUlid : String → Option NoteId)

def deriveMax (faults : Faults) : Nat → List String → Except String Nat
  | maxSeen, [] => .ok maxSeen
  | maxSeen, body :: rest => do
      faults.pass .deriveRow
      match maxFeatureNumber parseUlid body with
      | some n => deriveMax faults (if maxSeen < n then n else maxSeen) rest
      | none => deriveMax faults maxSeen rest

/-- What the transaction writes.  An error rolls it back. -/
def nextNumber (s : FeatureIndex) (vault : VaultId) (faults : Faults) : Except String Int64 := do
  faults.pass .begin
  faults.pass .select
  let counter := (s.counters vault).getD 0
  faults.pass .derivePrepare
  faults.pass .deriveQuery
  let derived ← deriveMax parseUlid faults 0 (cardBodies s.notes vault)
  let floor := max counter (.ofNat derived)
  let next := floor + 1
  faults.pass .upsert
  faults.pass .commit
  return next

/-- `INSERT .. ON CONFLICT(vault_id) DO UPDATE`. -/
def setCounter (s : FeatureIndex) (vault : VaultId) (value : Int64) : FeatureIndex :=
  { s with counters := update s.counters vault (some value) }

/-- The number is converted to an `u32` after the commit. -/
def allocateFeatureNumber (s : FeatureIndex) (vault : VaultId) (faults : Faults) :
    Except String Nat × FeatureIndex :=
  match s.nextNumber parseUlid vault faults with
  | .error e => (.error e, s)
  | .ok next =>
    (if 0 ≤ next.toInt ∧ next.toInt < 2 ^ 32 then .ok next.toInt.toNat
      else .error ("allocate_feature_number: overflow (" ++ toString next ++ ")"),
      s.setCounter vault next)

end FeatureIndex

/-! ## 3. One allocation -/

theorem mem_cardBodies {id : NoteId}
    (hrow : v.state.notes ⟨vault, id⟩ = some row) (hsec : row.section = .projectMap) :
    row.bodyText ∈ cardBodies v vault := by
  refine mem_filterMap.2 ⟨⟨vault, id⟩, v.covers _ row hrow, ?_⟩
  rw [if_pos rfl, hrow, Option.filter_some, if_pos (decide_eq_true hsec), Option.map_some]

theorem toInt_max (a b : Int64) : (max a b).toInt = max a.toInt b.toInt := by
  show (if a ≤ b then b else a).toInt = _
  rw [max_def]
  simp only [Int64.le_iff_toInt_le]
  split <;> rfl

namespace FeatureIndex

variable {s : FeatureIndex} {vault : VaultId}

theorem deriveMax_ok (hlt : maxSeen < 1000) (h : deriveMax parseUlid faults maxSeen bodies = .ok derived) :
    maxSeen ≤ derived ∧ derived < 1000 ∧
      ∀ body ∈ bodies, ∀ n, NamesFeature parseUlid body n → n ≤ derived := by
  induction bodies generalizing maxSeen with
  | nil =>
    cases h
    exact ⟨le_rfl, hlt, by simp⟩
  | cons body rest ih =>
    rw [deriveMax, bind_eq_ok_iff] at h
    obtain ⟨_, -, h⟩ := h
    split at h
    · rename_i n hn
      obtain ⟨hnames, hmax⟩ := maxFeatureNumber_eq_some hn
      have hn1000 := hnames.lt
      obtain ⟨hseen, hderiv, hrest⟩ := ih (by split <;> omega) h
      have hn : n ≤ derived ∧ maxSeen ≤ derived := by split at hseen <;> omega
      refine ⟨hn.2, hderiv, forall_mem_cons.2 ⟨fun m hm => ?_, hrest⟩⟩
      exact (hmax m hm).trans hn.1
    · rename_i hnone
      obtain ⟨hseen, hderiv, hrest⟩ := ih hlt h
      refine ⟨hseen, hderiv, forall_mem_cons.2 ⟨fun m hm => ?_, hrest⟩⟩
      exact absurd hm (maxFeatureNumber_eq_none hnone m)

def counter (s : FeatureIndex) (vault : VaultId) : Int := ((s.counters vault).getD 0).toInt

@[simp] theorem notes_setCounter (value : Int64) : (s.setCounter vault value).notes = s.notes := rfl

@[simp] theorem counter_setCounter (value : Int64) :
    (s.setCounter vault value).counter vault = value.toInt := by
  simp [setCounter, counter]

theorem counter_setCounter_of_ne (h : vault' ≠ vault) (value : Int64) :
    (s.setCounter vault value).counter vault' = s.counter vault' := by
  simp [setCounter, counter, update_of_ne h]

theorem nextNumber_ok {next : Int64} (h : s.nextNumber parseUlid vault faults = .ok next) :
    ∃ derived : Nat, derived < 1000 ∧
      (∀ body ∈ cardBodies s.notes vault, ∀ n, NamesFeature parseUlid body n → n ≤ derived) ∧
      next.toInt = (max (s.counter vault) derived + 1).bmod (2 ^ 64) := by
  simp only [nextNumber, bind_eq_ok_iff, pure_eq_ok_iff] at h
  obtain ⟨_, -, _, -, _, -, _, -, derived, hderiv, _, -, _, -, rfl⟩ := h
  obtain ⟨-, hlt, hnamed⟩ := deriveMax_ok (by omega) hderiv
  refine ⟨derived, hlt, hnamed, ?_⟩
  rw [Int64.toInt_add, toInt_max, Int64.toInt_ofNat_of_lt (by omega), Int64.toInt_one]
  rfl

theorem allocate_of_lt {next : Int64} (h : s.nextNumber parseUlid vault faults = .ok next)
    (hroom : s.counter vault < 2 ^ 32 - 1) : ∃ n : Nat, s.allocateFeatureNumber parseUlid vault faults =
        (.ok n, s.setCounter vault next) ∧ next.toInt = n ∧ s.counter vault < n ∧
      ∀ body ∈ cardBodies s.notes vault, ∀ m, NamesFeature parseUlid body m → m < n := by
  obtain ⟨derived, hlt, hnamed, hnext⟩ := nextNumber_ok h
  have hfits : next.toInt = max (s.counter vault) derived + 1 := by
    rw [hnext]
    exact Int.bmod_eq_of_le (by omega) (by omega)
  refine ⟨next.toInt.toNat, ?_, by omega, by omega, fun body hbody m hm => ?_⟩
  · unfold allocateFeatureNumber
    rw [h]
    dsimp only
    rw [if_pos (by omega)]
  · have := hnamed body hbody m hm
    omega

theorem allocate_of_le {next : Int64} (h : s.nextNumber parseUlid vault faults = .ok next)
    (hfull : 2 ^ 32 - 1 ≤ s.counter vault) :
    ∃ e, s.allocateFeatureNumber parseUlid vault faults = (.error e, s.setCounter vault next) ∧
      (s.setCounter vault next).counters vault ≠ s.counters vault := by
  obtain ⟨derived, hlt, -, hnext⟩ := nextNumber_ok h
  have hupper : s.counter vault < 2 ^ 63 := Int64.toInt_lt _
  have hfloor : max (s.counter vault) derived = s.counter vault := by omega
  rw [hfloor] at hnext
  -- the sum is out of range, or has wrapped around to a negative number
  have hout : next.toInt ≠ s.counter vault ∧ ¬ (0 ≤ next.toInt ∧ next.toInt < 2 ^ 32) := by
    rw [hnext]
    rcases Int.lt_or_le (s.counter vault) (2 ^ 63 - 1) with hless | hlast
    · rw [Int.bmod_eq_of_le (by omega) (by omega)]
      omega
    · have hmax : s.counter vault = 2 ^ 63 - 1 := by omega
      rw [hmax]
      decide
  refine ⟨"allocate_feature_number: overflow (" ++ toString next ++ ")", ?_, fun hsame => hout.1 ?_⟩
  · unfold allocateFeatureNumber
    rw [h]
    dsimp only
    rw [if_neg hout.2]
  · have hcntr : (s.setCounter vault next).counter vault = next.toInt := counter_setCounter next
    rw [counter, hsame] at hcntr
    exact hcntr.symm

theorem allocate_of_error (h : s.nextNumber parseUlid vault faults = .error e) :
    s.allocateFeatureNumber parseUlid vault faults = (.error e, s) := by
  unfold allocateFeatureNumber
  rw [h]

theorem counters_ne_of_allocate (h : s.allocateFeatureNumber parseUlid vault faults = (.ok n, s')) :
    s'.counters ≠ s.counters := by
  intro hsame
  cases hnext : s.nextNumber parseUlid vault faults with
  | error e =>
    rw [allocate_of_error hnext] at h
    cases h
  | ok next =>
    rcases Int.lt_or_le (s.counter vault) (2 ^ 32 - 1) with hroom | hfull
    · obtain ⟨m, hres, hm, hcntr, -⟩ := allocate_of_lt hnext hroom
      rw [hres] at h
      cases h
      have hnew : (s.setCounter vault next).counter vault = next.toInt := counter_setCounter next
      rw [counter, hsame] at hnew
      have hold : s.counter vault = next.toInt := hnew
      omega
    · obtain ⟨e, hres, -⟩ := allocate_of_le hnext hfull
      rw [hres] at h
      cases h

end FeatureIndex

/-! ## 4. Runs -/

structure Allocations where
  index : FeatureIndex
  returned : VaultId → List Nat

/-- An allocation, or whatever else changes the notes: a write or a deletion, in any vault. -/
inductive FeatureEvent where
  | allocate (vault : VaultId) (faults : Faults)
  | notes (after : IndexedVault)

namespace Allocations

variable (parseUlid : String → Option NoteId) (a : Allocations)

def step : FeatureEvent → Allocations
  | .allocate vault faults =>
    match a.index.allocateFeatureNumber parseUlid vault faults with
    | (.ok n, index) => ⟨index, update a.returned vault (n :: a.returned vault)⟩
    | (.error _, index) => ⟨index, a.returned⟩
  | .notes after => { a with index := { a.index with notes := after } }

/-- A number that is returned is greater than those returned before and those of the cards of the vault;
a call that fails leaves the counter as it was. -/
def Fresh : FeatureEvent → Prop
  | .allocate vault faults =>
    match a.index.allocateFeatureNumber parseUlid vault faults with
    | (.ok n, _) => (∀ m ∈ a.returned vault, m < n) ∧
        ∀ id row m, a.index.notes.state.notes ⟨vault, id⟩ = some row → row.section = .projectMap →
          m < 2 ^ 32 → NamesFeature parseUlid row.bodyText m → m < n
    | (.error _, index) => index.counters vault = a.index.counters vault
  | .notes _ => True

/-- A call that SQLite lets commit finds a counter below the greatest `u32`. -/
def Roomy : FeatureEvent → Prop
  | .allocate vault faults => (∃ next, a.index.nextNumber parseUlid vault faults = .ok next) →
      a.index.counter vault < 2 ^ 32 - 1
  | .notes _ => True

def Counted : Prop := ∀ vault, ∀ m ∈ a.returned vault, (m : Int) ≤ a.index.counter vault

section Runs

variable {parseUlid} {a : Allocations} {e : FeatureEvent}

theorem fresh_iff_roomy (hcntd : a.Counted) : Fresh parseUlid a e ↔ Roomy parseUlid a e := by
  cases e with
  | notes after => exact Iff.rfl
  | allocate vault faults =>
    cases hnext : a.index.nextNumber parseUlid vault faults with
    | error e =>
      have hstays := FeatureIndex.allocate_of_error hnext
      simp [Fresh, Roomy, hnext, hstays]
    | ok next =>
      rcases Int.lt_or_le (a.index.counter vault) (2 ^ 32 - 1) with hroom | hfull
      · obtain ⟨n, hres, -, hcntr, hcards⟩ := FeatureIndex.allocate_of_lt hnext hroom
        refine iff_of_true ?_ fun _ => hroom
        simp only [Fresh, hres]
        refine ⟨fun m hm => ?_, fun id row m hrow hsec _ hnames => ?_⟩
        · have hle := hcntd vault m hm
          omega
        · exact hcards row.bodyText (mem_cardBodies hrow hsec) m hnames
      · obtain ⟨e, hres, hchgd⟩ := FeatureIndex.allocate_of_le hnext hfull
        refine iff_of_false (fun hfresh => ?_) fun hroomy => ?_
        · simp only [Fresh, hres] at hfresh
          exact hchgd hfresh
        · have hroom : a.index.counter vault < 2 ^ 32 - 1 := hroomy ⟨next, hnext⟩
          omega

theorem counted_step (hcntd : a.Counted) (hroomy : Roomy parseUlid a e) : (a.step parseUlid e).Counted := by
  cases e with
  | notes after => exact hcntd
  | allocate vault faults =>
    cases hnext : a.index.nextNumber parseUlid vault faults with
    | error e =>
      simp only [step, FeatureIndex.allocate_of_error hnext]
      exact hcntd
    | ok next =>
      obtain ⟨n, hres, hn, hcntr, -⟩ :=
        FeatureIndex.allocate_of_lt hnext (hroomy ⟨next, hnext⟩)
      simp only [step, hres]
      intro vault' m hm
      dsimp only at hm ⊢
      by_cases hvault : vault' = vault
      · subst hvault
        rw [FeatureIndex.counter_setCounter, hn]
        rw [update_self, mem_cons] at hm
        rcases hm with rfl | hm
        · exact le_rfl
        · have hle := hcntd vault' m hm
          omega
      · rw [FeatureIndex.counter_setCounter_of_ne hvault]
        rw [update_of_ne hvault] at hm
        exact hcntd vault' m hm

/-- Every run of allocations, writes and deletions keeps feature numbers fresh just when each allocation
that commits finds a counter below the greatest `u32`. -/
theorem allocations_fresh_iff (s : FeatureIndex) (events : List FeatureEvent) :
    EachStep (step parseUlid) (Fresh parseUlid) ⟨s, fun _ => []⟩ events ↔
      EachStep (step parseUlid) (Roomy parseUlid) ⟨s, fun _ => []⟩ events := by
  have hstart : Counted ⟨s, fun _ => []⟩ := by
    intro vault m hm
    cases hm
  refine eachStep_iff_of_inv hstart ?_ ?_
  · intro a e hcntd hfresh
    exact counted_step hcntd ((fresh_iff_roomy hcntd).1 hfresh)
  · intro a e hcntd
    exact fresh_iff_roomy hcntd

end Runs

def start : Allocations := ⟨⟨.empty, fun _ => none⟩, fun _ => []⟩

def allocateMain : FeatureEvent := .allocate "main" fun _ => none

theorem nextNumber_empty {a : Allocations} (hnotes : a.index.notes = .empty) :
    a.index.nextNumber (fun _ => none) "main" (fun _ => none) =
      .ok (max ((a.index.counters "main").getD 0) 0 + 1) := by
  unfold FeatureIndex.nextNumber
  rw [hnotes]
  rfl

theorem counter_run_allocateMain (k : Nat) (hk : k ≤ 2 ^ 32 - 1) :
    (run (step fun _ => none) start (List.replicate k allocateMain)).index.notes = .empty ∧
      (run (step fun _ => none) start (List.replicate k allocateMain)).index.counter "main" = k := by
  induction k with
  | zero => exact ⟨rfl, rfl⟩
  | succ k ih =>
    obtain ⟨hnotes, hcntr⟩ := ih (by omega)
    rw [replicate_succ', run_append]
    generalize run (step fun _ => none) start (List.replicate k allocateMain) = a at hnotes hcntr
    obtain ⟨n, hres, hn, -⟩ := FeatureIndex.allocate_of_lt (nextNumber_empty hnotes) (by omega)
    have hvalue : (max ((a.index.counters "main").getD 0) 0 + 1).toInt = k + 1 := by
      rw [Int64.toInt_add, toInt_max]
      change (max (a.index.counter "main") 0 + 1).bmod (2 ^ 64) = _
      rw [hcntr, Int.bmod_eq_of_le (by omega) (by omega)]
      omega
    rw [run_cons, run_nil, allocateMain]
    simp only [step, hres, FeatureIndex.notes_setCounter, FeatureIndex.counter_setCounter]
    exact ⟨hnotes, by omega⟩

theorem not_fresh_of_calls (calls : Nat) (hcalls : calls = 2 ^ 32 - 1) :
    ¬ EachStep (step fun _ => none) (Fresh fun _ => none) start
        (List.replicate calls allocateMain ++ [allocateMain]) := by
  intro h
  obtain ⟨hnotes, hcntr⟩ := counter_run_allocateMain calls hcalls.le
  have hlast := (eachStep_append.1 h).2.1
  generalize run (step fun _ => none) start (List.replicate calls allocateMain) = a
    at hnotes hcntr hlast
  obtain ⟨e, hres, hchgd⟩ := FeatureIndex.allocate_of_le (nextNumber_empty hnotes) (by omega)
  simp only [allocateMain, Fresh, hres] at hlast
  exact hchgd hlast

/-- When all numbers have been returned, the next call fails and counts on. -/
theorem allocations_not_fresh : ¬ EachStep (step fun _ => none) (Fresh fun _ => none) start
        (List.replicate (2 ^ 32 - 1) allocateMain ++ [allocateMain]) :=
  not_fresh_of_calls (2 ^ 32 - 1) rfl

end Allocations

end Gradatum.ProjectMap
