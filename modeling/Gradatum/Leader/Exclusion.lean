import Gradatum.Leader.Election

/-!
# Leader exclusion

As long as a claim has not ended, the row names its worker and ends no earlier.  A reading that is long past
can only make a worker find a claim alive that has ended since.
-/

open Reasoning

namespace Gradatum.Leader

section Exclusion

variable {ω : Type} [DecidableEq ω] {expiresAfter : ω → Nat} {s : ElectionState ω}

/-! ## 1. What a statement does -/

/-- A call with the reading `now` of the worker `w` may write the row. -/
def Takeable (w : ω) (now : Int) (slot : Option (Leadership ω)) : Prop :=
  ∀ row, slot = some row → row.expiresAt < now ∨ row.holder = w

/-- A statement takes the row, to which its worker is entitled, or leaves it as it is, or is the release
of its worker. -/
theorem Phase.execute_cases (d : Nat) (w : ω) (slot : Option (Leadership ω)) (phase : Phase) :
    (∃ now, phase.reading = some now ∧ Takeable w now slot ∧
      phase.execute d w slot = (.returning true (now + d), some ⟨w, now + d⟩)) ∨
    ((phase.execute d w slot).2 = slot ∧ ((phase.execute d w slot).1 = phase ∨
        ∃ now, phase.reading = some now ∧ ((phase.execute d w slot).1 = .updating now ∨
          (phase.execute d w slot).1 = .returning false (now + d)))) ∨
    (phase = .releasing ∧ phase.execute d w slot = (.idle, deleteHeld w slot)) := by
  cases phase with
  | idle | returning => exact .inr (.inl ⟨rfl, .inl rfl⟩)
  | releasing => exact .inr (.inr ⟨rfl, rfl⟩)
  | inserting now =>
    cases slot with
    | none => exact .inl ⟨now, rfl, nofun, rfl⟩
    | some row => exact .inr (.inl ⟨rfl, .inr ⟨now, rfl, .inl rfl⟩⟩)
  | updating now =>
    cases slot with
    | none => exact .inr (.inl ⟨rfl, .inr ⟨now, rfl, .inr rfl⟩⟩)
    | some row =>
      by_cases hfree : row.expiresAt < now ∨ row.holder = w
      · left
        refine ⟨now, rfl, ?_, ?_⟩
        · rintro row' ⟨⟩
          exact hfree
        · simp [Phase.execute, updateClaimable, hfree]
      · right; left
        simp [Phase.execute, updateClaimable, hfree, Phase.reading]
  | renewing now =>
    cases slot with
    | none => exact .inr (.inl ⟨rfl, .inr ⟨now, rfl, .inr rfl⟩⟩)
    | some row =>
      by_cases hheld : row.holder = w
      · left
        refine ⟨now, rfl, ?_, ?_⟩
        · rintro row' ⟨⟩
          exact .inr hheld
        · simp [Phase.execute, updateHeld, hheld]
      · right; left
        simp [Phase.execute, updateHeld, hheld, Phase.reading]

/-! ## 2. The invariant -/

/-- The row stands for a claim of `w` until `expires`. -/
def Holds (slot : Option (Leadership ω)) (w : ω) (expires : Int) : Prop :=
  ∃ row, slot = some row ∧ row.holder = w ∧ expires ≤ row.expiresAt

/-- A claim of `w` until `expires` has ended or is backed by the row. -/
def Backed (s : ElectionState ω) (w : ω) (expires : Int) : Prop :=
  expires < s.clock ∨ Holds s.slot w expires

/-- A worker's claim, or the answer on its way to it. -/
def Claims (s : ElectionState ω) (w : ω) (expires : Int) : Prop :=
  s.claim w = some expires ∨ s.phase w = .returning true expires

structure ElectionInv (expiresAfter : ω → Nat) (s : ElectionState ω) : Prop where
  /-- Readings are taken from the clock. -/
  reading : ∀ w now, (s.phase w).reading = some now → now ≤ s.clock
  /-- A claim is as old as the call that made it. -/
  claimed : ∀ w expires, Claims s w expires → expires ≤ s.clock + expiresAfter w
  /-- A call in progress is younger than the claim. -/
  renewed : ∀ w expires now, s.claim w = some expires → (s.phase w).reading = some now →
    expires ≤ now + expiresAfter w
  backed : ∀ w expires, Claims s w expires → Backed s w expires

omit [DecidableEq ω] in
theorem electionInv_initial (clock : Int) (slot : Option (Leadership ω)) :
    ElectionInv expiresAfter (.initial clock slot) where
  reading := nofun
  claimed := by rintro w expires (h | h) <;> cases h
  renewed := nofun
  backed := by rintro w expires (h | h) <;> cases h

theorem Phase.claimAfter_some {phase : Phase} (h : phase.claimAfter claim = some expires) :
    claim = some expires := by
  cases phase <;> first | exact h | cases h

omit [DecidableEq ω] in
theorem Backed.later (h : Backed s w expires) (ms : Nat) :
    Backed { s with clock := s.clock + ms } w expires := by
  rcases h with hended | hholds
  · left
    show expires < s.clock + ms
    omega
  · exact .inr hholds

omit [DecidableEq ω] in
/-- A write of the row by a worker that is entitled to it meets no claim of another that has not
ended. -/
theorem Backed.of_takeable (h : Backed s w' expires) (hne : w' ≠ w) (hnow : now ≤ s.clock)
    (htake : Takeable w now s.slot) : expires < s.clock ∨ Holds slot' w' expires := by
  left
  rcases h with hended | ⟨row, hslot, hholder, hexpires⟩
  · exact hended
  rcases htake row hslot with hold | hself
  · omega
  · exact absurd (hholder.symm.trans hself) hne

theorem Holds.deleteHeld {w w' : ω}
    (h : Holds slot w' expires) (hne : w' ≠ w) : Holds (deleteHeld w slot) w' expires := by
  obtain ⟨row, rfl, hholder, hexpires⟩ := h
  refine ⟨row, ?_, hholder, hexpires⟩
  rw [← hholder] at hne
  simp [Leader.deleteHeld, Option.filter_some, hne]

section Update

variable {claim' : Option Int}

/-- The step rule of the invariant for a worker that goes on to another phase: what has to be shown of its own
reading and claim, and of the claims of the others if the row changes. -/
theorem ElectionInv.update (h : ElectionInv expiresAfter s) (w : ω)
    (hread : ∀ now, phase'.reading = some now → now ≤ s.clock)
    (hren : ∀ expires now, claim' = some expires → phase'.reading = some now →
      expires ≤ now + expiresAfter w)
    (hcla : ∀ expires, claim' = some expires ∨ phase' = .returning true expires →
      expires ≤ s.clock + expiresAfter w ∧ (expires < s.clock ∨ Holds slot' w expires))
    (hrest : ∀ w' expires, w' ≠ w → Backed s w' expires → expires < s.clock ∨ Holds slot' w' expires) :
    ElectionInv expiresAfter { s with
      slot := slot'
      phase := Function.update s.phase w phase'
      claim := Function.update s.claim w claim' } := by
  constructor
  all_goals intro w'
  all_goals simp only [Claims, Function.update_apply]
  all_goals by_cases hw : w' = w
  all_goals simp only [hw, if_true, if_false]
  · exact hread
  · exact h.reading w'
  · exact fun expires hc => (hcla expires hc).1
  · exact h.claimed w'
  · exact hren
  · exact h.renewed w'
  · exact fun expires hc => (hcla expires hc).2
  · exact fun expires hc => hrest w' expires hw (h.backed w' expires hc)

/-- The rule where the row stays as it is and the worker claims no more than before. -/
theorem ElectionInv.keep (h : ElectionInv expiresAfter s) (w : ω)
    (hread : ∀ now, phase'.reading = some now → now ≤ s.clock)
    (hren : ∀ expires now, claim' = some expires → phase'.reading = some now →
      expires ≤ now + expiresAfter w)
    (hcla : ∀ expires, claim' = some expires ∨ phase' = .returning true expires → Claims s w expires) :
    ElectionInv expiresAfter { s with
      phase := Function.update s.phase w phase', claim := Function.update s.claim w claim' } :=
  h.update w hread hren
    (fun expires hc => ⟨h.claimed w expires (hcla expires hc), h.backed w expires (hcla expires hc)⟩)
    fun _ _ _ hback => hback

end Update

section

variable (h : ElectionInv expiresAfter s)

include h

theorem electionInv_statement (w : ω) :
    ElectionInv expiresAfter (electionStep expiresAfter s (.statement w)) := by
  rw [electionStep]
  rcases Phase.execute_cases (expiresAfter w) w s.slot (s.phase w) with
    ⟨now, hnow, htake, hexec⟩ | ⟨hsame, hnext⟩ | ⟨hrel, hexec⟩
  · -- the worker takes the row: its new claim is backed, and no younger than its old one
    rw [hexec]
    have hle : now ≤ s.clock := h.reading w now hnow
    refine h.update w (fun _ h => by cases h) (fun _ _ _ h => by cases h) (fun expires hc => ?_)
      fun w' expires hw hback => hback.of_takeable hw hle htake
    have hbound : expires ≤ now + expiresAfter w := by
      rcases hc with hold | hnew
      · exact h.renewed w expires now (Phase.claimAfter_some hold) hnow
      · cases hnew
        exact le_rfl
    exact ⟨by omega, .inr ⟨_, rfl, rfl, hbound⟩⟩
  · -- the row stays as it is, and the answer, if there is one, is `false`
    generalize (s.phase w).execute (expiresAfter w) w s.slot = next at hsame hnext
    obtain ⟨phase', slot'⟩ := next
    dsimp only at hsame hnext ⊢
    subst hsame
    have hread : ∀ now, phase'.reading = some now → (s.phase w).reading = some now := by
      intro now hnow
      rcases hnext with rfl | ⟨now', hnow', rfl | rfl⟩
      · exact hnow
      · cases hnow
        exact hnow'
      · cases hnow
    refine h.keep w (fun now hnow => h.reading w now (hread now hnow)) (fun expires now hc hnow =>
      h.renewed w expires now (Phase.claimAfter_some hc) (hread now hnow)) ?_
    rintro expires (hold | hnew)
    · exact .inl (Phase.claimAfter_some hold)
    · rcases hnext with heq | ⟨now', -, heq | heq⟩
      · exact .inr (heq.symm.trans hnew)
      · cases heq.symm.trans hnew
      · cases heq.symm.trans hnew
  · -- the release gives up the claim of its worker
    rw [hexec, hrel]
    refine h.update w (fun _ h => by cases h) (fun _ _ h => by cases h) ?_
      fun w' expires hw hback => hback.imp_right fun hholds => hholds.deleteHeld hw
    rintro expires (hold | hnew)
    · cases hold
    · cases hnew

theorem electionInv_call (w : ω) (op : Operation) :
    ElectionInv expiresAfter (electionStep expiresAfter s (.call w op)) := by
  rw [electionStep]
  split
  · have hread : ∀ now, (op.issue s.clock).reading = some now → now = s.clock := by
      intro now hnow
      cases op <;> cases hnow <;> rfl
    rw [← Function.update_eq_self w s.claim]
    refine h.keep w (fun now hnow => (hread now hnow).le) (fun expires now hc hnow => ?_) ?_
    · -- the reading of the new call is the present time
      rw [hread now hnow]
      exact h.claimed w expires (.inl hc)
    rintro expires (hold | hnew)
    · exact .inl hold
    · cases op <;> cases hnew
  · exact h

theorem ElectionInv.finish (w : ω) (claim : Option Int)
    (hclaim : ∀ expires, claim = some expires → s.phase w = .returning true expires) :
    ElectionInv expiresAfter
      { s with
        phase := Function.update s.phase w .idle
        claim := Function.update s.claim w claim } := by
  refine h.keep w nofun nofun ?_
  rintro expires (hnew | hnew)
  · exact .inr (hclaim expires hnew)
  · cases hnew

theorem electionInv_step (e : ElectionEvent ω) :
    ElectionInv expiresAfter (electionStep expiresAfter s e) := by
  cases e with
  | tick ms =>
    have hlater : s.clock ≤ s.clock + ms := by omega
    refine ⟨?_, ?_, h.renewed, fun w expires hc => (h.backed w expires hc).later ms⟩
    · exact fun w now hnow => (h.reading w now hnow).trans hlater
    intro w expires hc
    have hbound : expires ≤ s.clock + expiresAfter w := h.claimed w expires hc
    show expires ≤ s.clock + ms + expiresAfter w
    omega
  | call w op => exact electionInv_call h w op
  | statement w => exact electionInv_statement h w
  | answer w =>
    cases hphase : s.phase w with
    | returning answer expires =>
      simp only [electionStep, hphase]
      apply h.finish w
      intro expires' hsome
      cases answer with
      | true =>
        cases hsome
        exact hphase
      | false => cases hsome
    | _ =>
      simp only [electionStep, hphase]
      exact h
  | error w =>
    by_cases hidle : s.phase w = .idle
    · simp only [electionStep, hidle, if_true]
      exact h
    · simp only [electionStep, hidle, if_false]
      exact h.finish w none fun _ hsome => by cases hsome

end

/-! ## 3. Exclusion -/

def Unexpired (s : ElectionState ω) (w : ω) : Prop :=
  ∃ expires, s.claim w = some expires ∧ s.clock ≤ expires

/-- At most one worker has a claim that has not ended, and the row names it. -/
structure Exclusive (s : ElectionState ω) : Prop where
  unique : ∀ w w', Unexpired s w → Unexpired s w' → w = w'
  recorded : ∀ w, Unexpired s w → ∃ row, s.slot = some row ∧ row.holder = w

structure RespectsHolder (expiresAfter : ω → Nat) (s : ElectionState ω) (e : ElectionEvent ω) :
    Prop where
  /-- A holder whose time has not passed stays the holder, unless it releases. -/
  kept : ∀ row, s.slot = some row → s.clock ≤ row.expiresAt →
    (∃ row', (electionStep expiresAfter s e).slot = some row' ∧ row'.holder = row.holder) ∨
      (e = .statement row.holder ∧ s.phase row.holder = .releasing)
  /-- `renew` answers `true` to the recorded holder alone. -/
  renewed : ∀ w now expires, e = .statement w → s.phase w = .renewing now →
    (electionStep expiresAfter s e).phase w = .returning true expires →
    ∃ row, s.slot = some row ∧ row.holder = w
  /-- `release` removes the row of its own worker alone. -/
  released : ∀ w row, e = .statement w → s.phase w = .releasing → s.slot = some row →
    row.holder ≠ w → (electionStep expiresAfter s e).slot = some row

omit [DecidableEq ω] in
theorem ElectionInv.exclusive (h : ElectionInv expiresAfter s) : Exclusive s := by
  have hholds : ∀ w, Unexpired s w → ∃ row, s.slot = some row ∧ row.holder = w := by
    rintro w ⟨expires, hclaim, halive⟩
    rcases h.backed w expires (.inl hclaim) with hended | ⟨row, hslot, hholder, -⟩
    · omega
    · exact ⟨row, hslot, hholder⟩
  refine ⟨fun w w' hw hw' => ?_, hholds⟩
  obtain ⟨row, hslot, hholder⟩ := hholds w hw
  obtain ⟨row', hslot', hholder'⟩ := hholds w' hw'
  rw [hslot] at hslot'
  cases hslot'
  exact hholder.symm.trans hholder'

theorem ElectionInv.kept (h : ElectionInv expiresAfter s) (e : ElectionEvent ω)
    (hslot : s.slot = some row) (halive : s.clock ≤ row.expiresAt) :
    (∃ row', (electionStep expiresAfter s e).slot = some row' ∧ row'.holder = row.holder) ∨
      (e = .statement row.holder ∧ s.phase row.holder = .releasing) := by
  -- only a statement touches the row
  have hsame : (electionStep expiresAfter s e).slot = s.slot →
      ∃ row', (electionStep expiresAfter s e).slot = some row' ∧ row'.holder = row.holder :=
    fun heq => ⟨row, heq.trans hslot, rfl⟩
  cases e with
  | tick ms => exact .inl (hsame rfl)
  | call | answer | error =>
    left
    apply hsame
    simp only [electionStep]
    split <;> rfl
  | statement w =>
    have hafter : (electionStep expiresAfter s (.statement w)).slot =
        ((s.phase w).execute (expiresAfter w) w s.slot).2 := rfl
    rcases Phase.execute_cases (expiresAfter w) w s.slot (s.phase w) with
      ⟨now, hnow, htake, hexec⟩ | ⟨heq, -⟩ | ⟨hrel, hexec⟩
    · left
      rw [hexec] at hafter
      have hle : now ≤ s.clock := h.reading w now hnow
      rcases htake row hslot with hpas | hself
      · omega
      · exact ⟨_, hafter, hself.symm⟩
    · exact .inl (hsame (hafter.trans heq))
    · by_cases hself : row.holder = w
      · right
        rw [hself]
        exact ⟨rfl, hrel⟩
      left
      apply hsame
      rw [hafter, hexec, hslot]
      simp [deleteHeld, Option.filter_some, hself]

theorem ElectionInv.respectsHolder (h : ElectionInv expiresAfter s) (e : ElectionEvent ω) :
    RespectsHolder expiresAfter s e where
  kept := fun _ hslot halive => h.kept e hslot halive
  renewed := by
    rintro w now expires rfl hphase hans
    simp only [electionStep, hphase, Function.update_self, Phase.execute] at hans
    cases hslot : s.slot with
    | none =>
      rw [hslot] at hans
      cases hans
    | some row =>
      refine ⟨row, rfl, ?_⟩
      rw [hslot, updateHeld] at hans
      split at hans
      · assumption
      · cases hans
  released := by
    rintro w row rfl hphase hslot hother
    simp [electionStep, hphase, Phase.execute, deleteHeld, hslot, Option.filter_some, hother]

/-- Exclusion holds in every run of any workers, whenever it starts and whatever row it finds. -/
theorem leaderExclusion (expiresAfter : ω → Nat) (clock : Int) (slot : Option (Leadership ω))
    (es : List (ElectionEvent ω)) :
    Always (electionStep expiresAfter) Exclusive (.initial clock slot) es ∧
      EachStep (electionStep expiresAfter) (RespectsHolder expiresAfter) (.initial clock slot) es := by
  have hinit : ElectionInv expiresAfter (.initial clock slot) := electionInv_initial clock slot
  constructor
  · intro pre _
    exact (inv_run hinit (fun _ e h => electionInv_step h e) pre).exclusive
  · exact EachStep.of_forall_mem (ElectionInv expiresAfter) hinit
      (fun _ e h => electionInv_step h e) fun _ h e _ => h.respectsHolder e

-- worker 2 comes while the claim of worker 1 is alive, and again when it has ended
example :
    let expiresAfter : Fin 3 → Nat := fun _ => 60
    let acquire (w : Fin 3) : List (ElectionEvent (Fin 3)) :=
      [.call w .tryAcquire, .statement w, .statement w, .answer w]
    let s := run (electionStep expiresAfter) (.initial 0 none) (acquire 1 ++ [.tick 60] ++ acquire 2)
    let s' := run (electionStep expiresAfter) s ([.tick 1] ++ acquire 2)
    (s.claim 1 = some 60 ∧ s.claim 2 = none) ∧ s'.claim 2 = some 121 := by
  decide

end Exclusion

end Gradatum.Leader
