import Gradatum.Access.Guard

/-!
# The access preset

A preset lists consumers with the patterns of the loci that they may read and write.  A pattern after `!` is
a negation, and a negation that matches wins over the other patterns.  The table of a caller is the first
one of its identity.
-/

open Reasoning

namespace Gradatum.Access

open Notes List

/-! ## 1. Presets -/

inductive AclDecision where
  | allow
  | denyExplicit
  | denyImplicit
  deriving DecidableEq

inductive AclError where
  | toml
  | glob (pattern : String)
  | removedPresetField (field : String)

structure ConsumerEntry where
  identity : String
  readPatterns : List String
  writePatterns : List String

def ConsumerEntry.patterns (entry : ConsumerEntry) : AclOp → List String
  | .read => entry.readPatterns
  | .write => entry.writePatterns

/-- A `[[consumer]]` table: its keys, and the entry that it is read as. -/
structure TomlTable where
  keys : List String
  entry : Option ConsumerEntry

/-- `globset`: which patterns compile, and what a pattern matches.  A set of patterns is their list. -/
structure Globs where
  compiles : String → Bool
  isMatch : String → String → Bool

structure CompiledConsumer where
  identity : String
  allow : AclOp → List String
  deny : AclOp → List String

structure AclEngine where
  consumers : List CompiledConsumer

def removedField : String := "sees_personal_classified"

def rejectRemovedPresetField (tables : List TomlTable) : Except AclError Unit :=
  require (!tables.any fun t => t.keys.contains removedField) (.removedPresetField removedField)

def negation (pattern : String) : Option String :=
  match pattern.toList with
  | '!' :: rest => some (String.ofList rest)
  | _ => none

def splitPatterns (patterns : List String) : List String × List String :=
  (patterns.filter fun p => (negation p).isNone, patterns.filterMap negation)

def ConsumerEntry.compiled (entry : ConsumerEntry) : CompiledConsumer where
  identity := entry.identity
  allow := fun op => (splitPatterns (entry.patterns op)).1
  deny := fun op => (splitPatterns (entry.patterns op)).2

section Engine

variable (globs : Globs)

/-- `Glob::new`, for a pattern as the loop of `split_patterns` finds it. -/
def newGlob (pattern : String) : Except AclError Unit :=
  let glob := (negation pattern).getD pattern
  require (globs.compiles glob) (.glob glob)

def compileConsumer (entry : ConsumerEntry) : Except AclError CompiledConsumer := do
  (entry.readPatterns ++ entry.writePatterns).forM (newGlob globs)
  return entry.compiled

def AclEngine.fromEntries (entries : List ConsumerEntry) : Except AclError AclEngine := do
  return ⟨← entries.mapM (compileConsumer globs)⟩

def AclEngine.fromPresetStr (parse : String → Option (List TomlTable)) (text : String) :
    Except AclError AclEngine := do
  let tables ← present (parse text) .toml
  rejectRemovedPresetField tables
  let entries ← present (tables.mapM TomlTable.entry) .toml
  fromEntries globs entries

/-! ## 2. Decisions -/

/-- The identity of a caller, and the tenant that a token is for. -/
def TrustContext.credentials : TrustContext → Option (String × Option VaultId)
  | .unauthenticated => none
  | .bearerToken sub _ tenant => some (sub, some tenant)
  | .studio user => some (user, none)
  | .mtls cn => some (cn, none)

/-- A locus of one segment is the root of a tenant. -/
def isolates (tenant : Option VaultId) (locus : String) : Bool :=
  tenant.any fun tid => !locus.toList.contains '/' && locus ≠ "" && locus ≠ tid

def CompiledConsumer.verdict (c : CompiledConsumer) (op : AclOp) (locus : String) : AclDecision :=
  if (c.deny op).any fun glob => globs.isMatch glob locus then .denyExplicit
  else if (c.allow op).any fun glob => globs.isMatch glob locus then .allow
  else .denyImplicit

def AclEngine.evaluate (engine : AclEngine) (trust : TrustContext) (op : AclOp) (locus : String) :
    AclDecision :=
  match trust.credentials with
  | none => .denyImplicit
  | some (identity, tenant) =>
    match engine.consumers.find? fun c => c.identity = identity with
    | none => .denyImplicit
    | some c => if isolates tenant locus then .denyExplicit else c.verdict globs op locus

end Engine

open AclEngine

/-! ## 3. What a caller is told -/

section Compiled

variable {globs : Globs}

/-- Whether a preset is accepted does not depend on the order of its tables. -/
theorem fromEntries_eq_ok_iff : fromEntries globs entries = .ok engine ↔
      (∀ entry ∈ entries, compileConsumer globs entry = .ok entry.compiled) ∧
        engine = ⟨entries.map ConsumerEntry.compiled⟩ := by
  have hone : ∀ entry c, compileConsumer globs entry = .ok c → c = entry.compiled := by
    intro entry c h
    simp only [compileConsumer, bind_eq_ok_iff, pure_eq_ok_iff] at h
    obtain ⟨_, -, rfl⟩ := h
    rfl
  have hmapM : ∀ cs, entries.mapM (compileConsumer globs) = .ok cs ↔
      (∀ entry ∈ entries, compileConsumer globs entry = .ok entry.compiled) ∧
        cs = entries.map ConsumerEntry.compiled := by
    induction entries with
    | nil =>
      intro cs
      rw [mapM_nil, pure_eq_ok_iff, eq_comm]
      simp
    | cons entry rest ih =>
      intro cs
      simp only [mapM_cons, bind_eq_ok_iff, pure_eq_ok_iff, ih, forall_mem_cons, map_cons]
      constructor
      · rintro ⟨c, hentry, _, ⟨hrest, rfl⟩, rfl⟩
        cases hone entry c hentry
        exact ⟨⟨hentry, hrest⟩, rfl⟩
      · rintro ⟨⟨hentry, hrest⟩, rfl⟩
        exact ⟨_, hentry, _, ⟨hrest, rfl⟩, rfl⟩
  simp only [fromEntries, bind_eq_ok_iff, pure_eq_ok_iff, hmapM]
  constructor
  · rintro ⟨_, ⟨hall, rfl⟩, rfl⟩
    exact ⟨hall, rfl⟩
  · rintro ⟨hall, rfl⟩
    exact ⟨_, ⟨hall, rfl⟩, rfl⟩

/-- What the table of a caller decides. -/
def ConsumerEntry.decision (globs : Globs) (tenant : Option VaultId) (op : AclOp) (locus : String)
    (entry : ConsumerEntry) : AclDecision :=
  if isolates tenant locus then .denyExplicit else entry.compiled.verdict globs op locus

theorem evaluate_eq (h : fromEntries globs entries = .ok engine)
    (htrust : trust.credentials = some (identity, tenant)) (op : AclOp) (locus : String) :
    engine.evaluate globs trust op locus = ((entries.find? fun e => e.identity = identity).map
        (ConsumerEntry.decision globs tenant op locus)).getD .denyImplicit := by
  obtain ⟨-, rfl⟩ := fromEntries_eq_ok_iff.1 h
  have hfind : ((entries.map ConsumerEntry.compiled).find? fun c => c.identity = identity) =
      (entries.find? fun e => e.identity = identity).map ConsumerEntry.compiled := find?_map
  rw [evaluate, htrust]
  dsimp only
  rw [hfind]
  cases entries.find? fun e => e.identity = identity <;> rfl

end Compiled

/-! ## 4. Negations -/

def AddsNegation (entry entry' : ConsumerEntry) : Prop :=
  entry'.identity = entry.identity ∧ ∃ pattern glob, negation pattern = some glob ∧
    ∀ op, (entry'.patterns op).Perm (entry.patterns op) ∨
      (entry'.patterns op).Perm (pattern :: entry.patterns op)

/-- What the negations of a preset are to do, where the caller is given this decision. -/
structure NegationsWin (globs : Globs) (entries : List ConsumerEntry) (trust : TrustContext) (op : AclOp)
    (locus : String) (decision : AclDecision) : Prop where
  order : ∀ entries' engine', entries'.Perm entries → fromEntries globs entries' = .ok engine' →
    engine'.evaluate globs trust op locus = decision
  negated : ∀ entry ∈ entries, trust.credentials.map Prod.fst = some entry.identity →
    (∃ p ∈ entry.patterns op, ∃ glob, negation p = some glob ∧ globs.isMatch glob locus = true) →
      decision ≠ .allow
  added : ∀ before entry entry' after engine', entries = before ++ entry :: after →
    AddsNegation entry entry' → fromEntries globs (before ++ entry' :: after) = .ok engine' →
      decision ≠ .allow → engine'.evaluate globs trust op locus ≠ .allow
  others : ∀ entries' engine', fromEntries globs entries' = .ok engine' →
    (∀ identity tenant, trust.credentials = some (identity, tenant) →
      (entries'.filter fun e => e.identity = identity) = entries.filter fun e => e.identity = identity) →
        engine'.evaluate globs trust op locus = decision

section Negations

variable {globs : Globs} {op : AclOp} {locus : String}

theorem verdict_eq_allow_iff {c : CompiledConsumer} : c.verdict globs op locus = .allow ↔
    (∀ glob ∈ c.deny op, globs.isMatch glob locus = false) ∧
      ∃ glob ∈ c.allow op, globs.isMatch glob locus = true := by
  unfold CompiledConsumer.verdict
  split
  · rename_i hdeny
    obtain ⟨glob, hglob, hmatch⟩ := any_eq_true.1 hdeny
    simp only [reduceCtorEq, false_iff, not_and]
    intro hall
    rw [hall glob hglob] at hmatch
    cases hmatch
  · rename_i hdeny
    have hall : ∀ glob ∈ c.deny op, globs.isMatch glob locus = false := by simpa using hdeny
    split
    · rename_i hallow
      exact iff_of_true rfl ⟨hall, any_eq_true.1 hallow⟩
    · rename_i hallow
      refine iff_of_false nofun fun h => hallow (any_eq_true.2 h.2)

theorem AddsNegation.allow (h : AddsNegation entry entry')
    (hallow : entry'.compiled.verdict globs op locus = .allow) :
    entry.compiled.verdict globs op locus = .allow := by
  obtain ⟨-, pattern, glob, hpattern, hops⟩ := h
  have hmem : ∀ p, p ∈ entry'.patterns op ↔ p ∈ entry.patterns op ∨ p ∈ entry'.patterns op ∧ p = pattern := by
    intro p
    rcases hops op with hperm | hperm
    · rw [hperm.mem_iff]
      exact ⟨.inl, fun hp => hp.elim id And.left⟩
    · rw [hperm.mem_iff, mem_cons]
      grind
  rw [verdict_eq_allow_iff] at hallow ⊢
  obtain ⟨hdeny, found, hfound, hmatch⟩ := hallow
  simp only [ConsumerEntry.compiled, splitPatterns, mem_filterMap, mem_filter] at hdeny hfound ⊢
  refine ⟨?_, found, ⟨?_, hfound.2⟩, hmatch⟩
  · rintro g ⟨p, hp, hg⟩
    exact hdeny g ⟨p, (hmem p).2 (.inl hp), hg⟩
  rcases (hmem found).1 hfound.1 with hold | ⟨-, rfl⟩
  · exact hold
  · rw [hpattern] at hfound
    cases hfound.2

theorem decision_eq_allow_iff {entry : ConsumerEntry} : entry.decision globs tenant op locus = .allow ↔
      isolates tenant locus = false ∧ entry.compiled.verdict globs op locus = .allow := by
  unfold ConsumerEntry.decision
  split
  · rename_i hisolates
    simp [hisolates]
  · rename_i hopen
    simp [hopen]

section Agreement

variable {α β : Type} {p : α → Bool} {f : α → β} {l l' : List α}
  (hagree : ∀ a ∈ l, ∀ b ∈ l, p a = true → p b = true → f a = f b)

include hagree

theorem map_find?_of_agree (he : e ∈ l) (hp : p e = true) : (l.find? p).map f = some (f e) := by
  cases hfind : l.find? p with
  | none => exact absurd hp (find?_eq_none.1 hfind e he)
  | some a => exact congrArg some (hagree a (mem_of_find?_eq_some hfind) e he (find?_some hfind) hp)

theorem map_find?_perm (hperm : l'.Perm l) : (l'.find? p).map f = (l.find? p).map f := by
  cases hfind : l'.find? p with
  | none =>
    have hnone := find?_eq_none.1 hfind
    rw [find?_eq_none.2 fun e he => hnone e (hperm.mem_iff.2 he)]
  | some e =>
    have he := hperm.mem_iff.1 (mem_of_find?_eq_some hfind)
    exact (map_find?_of_agree hagree he (find?_some hfind)).symm

end Agreement

section Decisions

variable {entries : List ConsumerEntry} {engine : AclEngine} {trust : TrustContext}
  (h : fromEntries globs entries = .ok engine)
  (htrust : trust.credentials = some (identity, tenant))

include h htrust

theorem verdict_of_order (hopen : isolates tenant locus = false)
    (horder : ∀ entries' engine', entries'.Perm entries → fromEntries globs entries' = .ok engine' →
      engine'.evaluate globs trust op locus = engine.evaluate globs trust op locus) (ha : a ∈ entries)
    (hid : a.identity = identity) :
    a.compiled.verdict globs op locus = engine.evaluate globs trust op locus := by
  classical
  -- each of the tables comes first in some order
  have hperm : (a :: entries.erase a).Perm entries := (perm_cons_erase ha).symm
  have hok : fromEntries globs (a :: entries.erase a) =
      .ok ⟨(a :: entries.erase a).map ConsumerEntry.compiled⟩ :=
    fromEntries_eq_ok_iff.2 ⟨fun e he => (fromEntries_eq_ok_iff.1 h).1 e (hperm.mem_iff.1 he), rfl⟩
  rw [← horder _ _ hperm hok, evaluate_eq hok htrust, find?_cons_of_pos (by simpa using hid)]
  simp [ConsumerEntry.decision, hopen]

theorem evaluate_addsNegation (hents : entries = before ++ entry :: back)
    (hadds : AddsNegation entry entry')
    (hok : fromEntries globs (before ++ entry' :: back) = .ok engine')
    (hallow : engine'.evaluate globs trust op locus = .allow) :
    engine.evaluate globs trust op locus = .allow := by
  rw [evaluate_eq h htrust, hents, find?_append, find?_cons]
  rw [evaluate_eq hok htrust, find?_append, find?_cons, hadds.1] at hallow
  cases hbef : before.find? fun e => e.identity = identity with
  | some e =>
    rw [hbef] at hallow
    exact hallow
  | none =>
    rw [hbef] at hallow
    by_cases hid : entry.identity = identity
    · rw [decide_eq_true hid] at hallow ⊢
      obtain ⟨hopen, hverd⟩ := decision_eq_allow_iff.1 hallow
      exact decision_eq_allow_iff.2 ⟨hopen, hadds.allow hverd⟩
    · rw [decide_eq_false hid] at hallow ⊢
      exact hallow

theorem negationsWin_of_caller
    (hagree : isolates tenant locus = false → ∀ a ∈ entries, ∀ b ∈ entries, a.identity = identity →
      b.identity = identity → a.compiled.verdict globs op locus = b.compiled.verdict globs op locus) :
    NegationsWin globs entries trust op locus (engine.evaluate globs trust op locus) := by
  have hsame : ∀ a ∈ entries, ∀ b ∈ entries, decide (a.identity = identity) = true →
      decide (b.identity = identity) = true →
        a.decision globs tenant op locus = b.decision globs tenant op locus := by
    intro a ha b hb hida hidb
    unfold ConsumerEntry.decision
    split
    · rfl
    rename_i hopen
    exact hagree (Bool.eq_false_of_not_eq_true hopen) a ha b hb (of_decide_eq_true hida)
      (of_decide_eq_true hidb)
  refine ⟨?_, ?_, ?_, ?_⟩
  · intro entries' engine' hperm hok
    rw [evaluate_eq hok htrust, evaluate_eq h htrust, map_find?_perm hsame hperm]
  · rintro entry hentry hcall ⟨p, hp, glob, hglob, hmatch⟩ hdecided
    have hid : decide (entry.identity = identity) = true := by
      rw [htrust] at hcall
      exact decide_eq_true (Option.some.inj hcall).symm
    rw [evaluate_eq h htrust, map_find?_of_agree hsame hentry hid, Option.getD_some] at hdecided
    have hverd := (decision_eq_allow_iff.1 hdecided).2
    have hdeny := (verdict_eq_allow_iff.1 hverd).1 glob (mem_filterMap.2 ⟨p, hp, hglob⟩)
    rw [hmatch] at hdeny
    cases hdeny
  · intro before entry entry' after engine' hents hadds hok hden hallow
    exact hden (evaluate_addsNegation h htrust hents hadds hok hallow)
  · intro entries' engine' hok hfilt
    rw [evaluate_eq hok htrust, evaluate_eq h htrust, ← head?_filter, ← head?_filter,
      hfilt identity tenant htrust]

end Decisions

theorem negationsWin_of_agree {trust : TrustContext} (h : fromEntries globs entries = .ok engine)
    (hagree : ∀ identity tenant, trust.credentials = some (identity, tenant) →
      isolates tenant locus = false → ∀ a ∈ entries, ∀ b ∈ entries, a.identity = identity →
        b.identity = identity → a.compiled.verdict globs op locus = b.compiled.verdict globs op locus) :
    NegationsWin globs entries trust op locus (engine.evaluate globs trust op locus) := by
  cases htrust : trust.credentials with
  | some caller => exact negationsWin_of_caller h htrust (hagree caller.1 caller.2 htrust)
  | none =>
    have hden : ∀ engine : AclEngine, engine.evaluate globs trust op locus = .denyImplicit := by
      intro engine
      rw [evaluate, htrust]
    rw [hden]
    refine ⟨fun _ _ _ _ => hden _, ?_, ?_, fun _ _ _ _ => hden _⟩
    · intro _ _ hcall
      simp [htrust] at hcall
    · intro _ _ _ _ engine' _ _ _ hne
      rwa [hden]

/-- A preset keeps its negations just where the tables of the caller agree. -/
theorem negationsWin_iff {entries : List ConsumerEntry} {engine : AclEngine} {trust : TrustContext}
    (h : fromEntries globs entries = .ok engine) :
    NegationsWin globs entries trust op locus (engine.evaluate globs trust op locus) ↔
      ∀ identity tenant, trust.credentials = some (identity, tenant) → isolates tenant locus = false →
        ∀ a ∈ entries, ∀ b ∈ entries, a.identity = identity → b.identity = identity →
          a.compiled.verdict globs op locus = b.compiled.verdict globs op locus := by
  constructor
  · intro hwin identity tenant htrust hopen a ha b hb hida hidb
    rw [verdict_of_order h htrust hopen hwin.order ha hida, verdict_of_order h htrust hopen hwin.order hb hidb]
  · exact negationsWin_of_agree h

/-- A text that is accepted as a preset keeps its negations if it has no two tables of one consumer. -/
theorem negationsWin_of_fromPresetStr (h : fromPresetStr globs parse text = .ok engine) :
    ∃ tables entries, parse text = some tables ∧ tables.mapM TomlTable.entry = some entries ∧
      (∀ t ∈ tables, removedField ∉ t.keys) ∧
      ((entries.map ConsumerEntry.identity).Nodup → ∀ trust op locus,
        NegationsWin globs entries trust op locus (engine.evaluate globs trust op locus)) := by
  simp only [fromPresetStr, rejectRemovedPresetField, bind_eq_ok_iff, present_eq_ok_iff,
    require_eq_ok_iff] at h
  obtain ⟨tables, hparse, _, hkeys, entries, hentries, hok⟩ := h
  refine ⟨tables, entries, hparse, hentries, by simpa using hkeys, ?_⟩
  intro hnodup trust op locus
  apply negationsWin_of_agree hok
  intro identity _ _ _ a ha b hb hida hidb
  rw [inj_on_of_nodup_map hnodup ha hb (hida.trans hidb.symm)]

/-- Any pattern compiles and matches itself alone. -/
def literalGlobs : Globs := ⟨fun _ => true, fun glob locus => glob = locus⟩

theorem negationsWin_one :
    let entries : List ConsumerEntry := [⟨"scribe", ["main/a", "!main/b"], []⟩]
    ∃ engine, fromEntries literalGlobs entries = .ok engine ∧
      NegationsWin literalGlobs entries (bearerOf "main") .read "main/b"
        (engine.evaluate literalGlobs (bearerOf "main") .read "main/b") := by
  have hok : fromEntries literalGlobs [⟨"scribe", ["main/a", "!main/b"], []⟩] = .ok _ :=
    fromEntries_eq_ok_iff.2 ⟨by simp [compileConsumer, newGlob, literalGlobs, require], rfl⟩
  refine ⟨_, hok, (negationsWin_iff hok).2 ?_⟩
  intro identity tenant _ _ a ha b hb _ _
  rw [mem_singleton.1 ha, mem_singleton.1 hb]

/-- The negation in the second table of `scribe` is never looked at. -/
theorem not_negationsWin_two :
    let entries : List ConsumerEntry := [⟨"scribe", ["main/a"], []⟩, ⟨"scribe", ["!main/a"], []⟩]
    ∃ engine, fromEntries literalGlobs entries = .ok engine ∧
      engine.evaluate literalGlobs (bearerOf "main") .read "main/a" = .allow ∧
      ¬ NegationsWin literalGlobs entries (bearerOf "main") .read "main/a"
        (engine.evaluate literalGlobs (bearerOf "main") .read "main/a") := by
  refine ⟨_, fromEntries_eq_ok_iff.2 ⟨by simp [compileConsumer, newGlob, literalGlobs, require], rfl⟩,
    by decide, fun hwin => ?_⟩
  exact hwin.negated ⟨"scribe", ["!main/a"], []⟩ (by simp) rfl
    ⟨"!main/a", by decide, "main/a", by decide, by decide⟩
    (by decide)

end Negations

end Gradatum.Access
