import Gradatum.Context.Disclosure

/-!
# The skills in front of a context

The header takes skills in their order as long as they fit the sub-budget; the response says how many skills
were ranked.
-/

open Reasoning

namespace Gradatum.Context

open List

def blocksCost (tools : Toolkit) (skills : List SkillEntry) : Nat :=
  (skills.map fun skill => tools.estimate (renderSkill skill)).sum

def skillsCost (tools : Toolkit) (skills : List SkillEntry) : Nat :=
  if skills = [] then 0 else tools.estimate skillsIntro + blocksCost tools skills

structure HeaderBudgeted (tools : Toolkit) (ranked : List SkillEntry) (subBudget : Nat) : Prop where
  taken : (headerSkills tools ranked subBudget).1 <+: ranked
  cost : (headerSkills tools ranked subBudget).2 = skillsCost tools (headerSkills tools ranked subBudget).1
  fits : skillsCost tools (headerSkills tools ranked subBudget).1 ≤ subBudget

def ContextText.skills : ContextText → List SkillEntry
  | .raw _ => []
  | .assembled skills _ _ _ => skills

/-- All skills fit, or not even the first does; the sums of `u32` do not go beyond the largest one. -/
def AllOrNone (tools : Toolkit) (ranked : List SkillEntry) (subBudget : Nat) : Prop :=
  subBudget < skillsCost tools (ranked.take 1) ∨ skillsCost tools ranked ≤ subBudget ∨
    2 ^ 32 - 1 ≤ subBudget

variable {tools : Toolkit} {subBudget used : Nat} {skills ranked : List SkillEntry}

theorem fittingSkills_spec (skills : List SkillEntry) (hused : used ≤ subBudget)
    (hsub : subBudget ≤ 2 ^ 32 - 1) :
    let found := fittingSkills tools subBudget used skills
    found.2 = min (used + blocksCost tools found.1) (2 ^ 32 - 1) ∧ found.2 ≤ subBudget ∧
      ∃ rest, skills = found.1 ++ rest ∧ ∀ skill ∈ rest.head?,
        subBudget < min (used + blocksCost tools (found.1 ++ [skill])) (2 ^ 32 - 1) := by
  induction skills generalizing used with
  | nil => exact ⟨by simp only [fittingSkills, blocksCost, map_nil, sum_nil]; omega, hused, [], rfl, by simp⟩
  | cons skill rest ih =>
    rw [fittingSkills]
    dsimp only
    split
    · rename_i hfull
      refine ⟨by simp only [blocksCost, map_nil, sum_nil]; omega, hused, skill :: rest, rfl, ?_⟩
      simpa [blocksCost, saturatingAdd] using hfull
    · rename_i hroom
      obtain ⟨hcost, hle, left, hsplit, hleft⟩ := ih (Nat.le_of_not_lt hroom)
      have hsum : ∀ n, min (saturatingAdd used (tools.estimate (renderSkill skill)) + n) (2 ^ 32 - 1) =
          min (used + (tools.estimate (renderSkill skill) + n)) (2 ^ 32 - 1) := by
        intro n
        rw [saturatingAdd]
        omega
      simp only [hsum] at hcost hleft
      exact ⟨hcost, hle, left, congrArg (skill :: ·) hsplit, hleft⟩

theorem headerSkills_spec (ranked : List SkillEntry) (hintro : tools.estimate skillsIntro < 2 ^ 32)
    (hpos : 0 < subBudget) (hsub : subBudget < 2 ^ 32) :
    let shown := headerSkills tools ranked subBudget
    shown.2 = min (skillsCost tools shown.1) (2 ^ 32 - 1) ∧ shown.2 ≤ subBudget ∧
      ∃ rest, ranked = shown.1 ++ rest ∧ ∀ skill ∈ rest.head?,
        subBudget < min (skillsCost tools (shown.1 ++ [skill])) (2 ^ 32 - 1) := by
  unfold headerSkills
  dsimp only
  split
  · rename_i hnone
    refine ⟨by simp [skillsCost], Nat.zero_le _, ranked, rfl, fun skill hskill => ?_⟩
    have hshort : subBudget < tools.estimate skillsIntro := by
      rcases hnone with rfl | hzero | hshort
      · cases hskill
      · omega
      · exact hshort
    simp only [skillsCost, nil_append, cons_ne_nil, if_false]
    omega
  · rename_i hsome
    push Not at hsome
    obtain ⟨hcost, hle, rest, hsplit, hrest⟩ :=
      fittingSkills_spec ranked hsome.2.2 (Nat.le_sub_one_of_lt hsub)
    split
    · rename_i total hfound
      rw [hfound] at hsplit hrest
      refine ⟨by simp [skillsCost], Nat.zero_le _, rest, hsplit, fun skill hskill => ?_⟩
      simpa [skillsCost] using hrest skill hskill
    · rename_i hfound
      have hne : (fittingSkills tools subBudget (tools.estimate skillsIntro) ranked).1 ≠ [] := fun hnil =>
        hfound _ (Prod.ext hnil rfl)
      refine ⟨by rw [skillsCost, if_neg hne]; exact hcost, hle, rest, hsplit, fun skill hskill => ?_⟩
      rw [skillsCost, if_neg (by simp)]
      exact hrest skill hskill

theorem skillsCost_le (tools : Toolkit) (skills more : List SkillEntry) :
    skillsCost tools skills ≤ skillsCost tools (skills ++ more) := by
  unfold skillsCost blocksCost
  split
  · exact Nat.zero_le _
  · rename_i hne
    rw [if_neg (by simp [hne]), map_append, sum_append]
    omega

theorem headerBudgeted_iff (hintro : tools.estimate skillsIntro < 2 ^ 32) (hsub : subBudget < 2 ^ 32) :
    HeaderBudgeted tools ranked subBudget ↔
      subBudget < 2 ^ 32 - 1 ∨ skillsCost tools ranked ≤ subBudget := by
  rcases Nat.eq_zero_or_pos subBudget with rfl | hpos
  · have hnone : headerSkills tools ranked 0 = ([], 0) := by simp [headerSkills]
    refine iff_of_true ⟨?_, ?_, ?_⟩ (.inl (by decide)) <;> simp [hnone, skillsCost]
  obtain ⟨hcost, hle, rest, hsplit, hrest⟩ := headerSkills_spec ranked hintro hpos hsub
  constructor
  · intro h
    by_cases hmax : subBudget < 2 ^ 32 - 1
    · exact .inl hmax
    right
    cases rest with
    | nil =>
      rw [append_nil] at hsplit
      have hfits := h.fits
      rwa [← hsplit] at hfits
    | cons skill rest =>
      have hmore := hrest skill rfl
      omega
  · intro h
    have hexact : skillsCost tools (headerSkills tools ranked subBudget).1 ≤ 2 ^ 32 - 1 := by
      rcases h with hmax | hfits
      · omega
      · have hmono := skillsCost_le tools (headerSkills tools ranked subBudget).1 rest
        rw [← hsplit] at hmono
        omega
    exact ⟨⟨rest, hsplit.symm⟩, by omega, by omega⟩

theorem length_shown_iff (hintro : tools.estimate skillsIntro < 2 ^ 32) (hpos : 0 < subBudget)
    (hsub : subBudget < 2 ^ 32) :
    let shown := (headerSkills tools ranked subBudget).1
    (if shown = [] then 0 else ranked.length) = shown.length ↔ AllOrNone tools ranked subBudget := by
  obtain ⟨hcost, hle, rest, hsplit, hrest⟩ := headerSkills_spec ranked hintro hpos hsub
  unfold AllOrNone
  dsimp only
  generalize headerSkills tools ranked subBudget = found at *
  obtain ⟨shown, total⟩ := found
  subst hsplit
  cases rest with
  | nil =>
    have hall : (if shown = [] then 0 else (shown ++ []).length) = shown.length := by
      split <;> simp_all
    refine iff_of_true hall (.inr ?_)
    rw [append_nil]
    dsimp only at hcost hle ⊢
    omega
  | cons skill rest =>
    have hmore := hrest skill rfl
    have hmono := skillsCost_le tools (shown ++ [skill]) rest
    rw [append_assoc, singleton_append] at hmono
    dsimp only at hcost hle hmore ⊢
    cases shown with
    | nil =>
      rw [nil_append] at hmore
      exact iff_of_true rfl (.inl (show subBudget < skillsCost tools [skill] by omega))
    | cons first shown =>
      have hfirst := skillsCost_le tools [first] shown
      refine iff_of_false (by simp) ?_
      rintro (h | h | h)
      · simp only [cons_append, take_succ_cons, take_zero] at h
        rw [singleton_append] at hfirst
        omega
      · omega
      · omega

namespace AppState

variable (state : AppState) (trust : Access.TrustContext) (req : VaultContextRequest)

def skillsBudget : Nat :=
  max 64 (min (2 ^ 32 - 1) ⌊(state.budget req : ℚ) * state.config.skillsBudgetFraction⌋.toNat)

/-- Where skills are injected, the sub-budget has room for all that are ranked, or for none. -/
def SkillsWhole : Prop :=
  ∀ outcome embedding index, state.retrieval = .ok outcome → state.visible trust outcome.candidates ≠ .ok [] →
    req.injectSkills = true → outcome.queryEmbedding = some embedding →
    state.getOrBuildSkillIndex = some index →
    AllOrNone state.tools (rankSkills state.tools index embedding state.config.maxSkills)
      (state.skillsBudget req)

variable {state trust req}

theorem skillsHeader_iff (hintro : state.tools.estimate skillsIntro < 2 ^ 32) (embedding : Option (List ℚ)) :
    (state.skillsHeader req embedding).2 = (state.skillsHeader req embedding).1.length ↔
      ∀ query index, req.injectSkills = true → embedding = some query → state.getOrBuildSkillIndex = some index →
        AllOrNone state.tools (rankSkills state.tools index query state.config.maxSkills)
          (state.skillsBudget req) := by
  unfold skillsHeader
  split
  · rename_i hinj
    split
    · rename_i query index hindex
      have hbudg : 0 < state.skillsBudget req ∧ state.skillsBudget req < 2 ^ 32 := by
        unfold skillsBudget
        omega
      refine (length_shown_iff hintro hbudg.1 hbudg.2).trans ⟨?_, fun h => h query index hinj rfl hindex⟩
      rintro h _ _ - ⟨⟩ hindex'
      cases hindex.symm.trans hindex'
      exact h
    · rename_i hnone
      exact iff_of_true rfl fun query index _ hquery hindex => (hnone query index hquery hindex).elim
  · rename_i hinj
    exact iff_of_true rfl fun _ _ h => absurd h hinj

/-- The header keeps to its budget unless a sum of `u32` is cut off, and the response says how many skills it
shows unless some of them fit and some do not. -/
theorem headerBudgeted_and_reported_iff (tools : Toolkit) (ranked : List SkillEntry) (subBudget : Nat)
    (htools : ∀ text, tools.estimate text < 2 ^ 32) (hsub : subBudget < 2 ^ 32)
    (hstate : ∀ text, state.tools.estimate text < 2 ^ 32)
    (h : state.assembleAssembled trust req = .ok assembly) : HeaderBudgeted tools ranked subBudget ∧
        assembly.response.diagnostics.skillsInjected = assembly.response.text.skills.length ↔
      (subBudget < 2 ^ 32 - 1 ∨ skillsCost tools ranked ≤ subBudget) ∧ state.SkillsWhole trust req := by
  refine and_congr (headerBudgeted_iff (htools _) hsub) ?_
  unfold assembleAssembled at h
  obtain ⟨-, -, h⟩ := bind_eq_ok_iff.1 h
  obtain ⟨outcome, hout, h⟩ := bind_eq_ok_iff.1 h
  obtain ⟨candidates, hleft, h⟩ := bind_eq_ok_iff.1 h
  unfold SkillsWhole
  rw [hout]
  split at h
  · rename_i hnone
    rw [← pure_eq_ok_iff.1 h]
    refine iff_of_true rfl ?_
    rintro _ _ _ ⟨⟩ hsome
    exact absurd (hnone ▸ hleft) hsome
  · rename_i hsome
    rw [← pure_eq_ok_iff.1 h]
    refine (skillsHeader_iff (hstate _) outcome.queryEmbedding).trans ⟨?_, fun hwhole query index => ?_⟩
    · rintro hwhole _ query index ⟨⟩ -
      exact hwhole query index
    · exact hwhole outcome query index rfl fun hnone => hsome (Except.ok.inj (hleft.symm.trans hnone))

end AppState

/-- Two skills of forty tokens each, of which the header has room for one. -/
def twoSkills : AppState :=
  { twoNotes "a" with
    tools := ⟨fun _ => 40, fun _ => none, fun _ => "0.00", fun _ _ => 0⟩
    skillsIndex := some ⟨[⟨"c", "C", "", [1]⟩, ⟨"d", "D", "", [1]⟩]⟩ }

theorem not_reported_twoSkills :
    (twoSkills.assembleAssembled reader (inMode .assembled)).toOption.map
      (fun a => (a.response.diagnostics.skillsInjected, a.response.text.skills.length)) = some (2, 1) := by
  decide +kernel

theorem reported_iff_twoSkills :
    ∃ assembly, twoSkills.assembleAssembled reader (inMode .assembled) = .ok assembly ∧
      (HeaderBudgeted twoSkills.tools [⟨"c", "C", "", [1]⟩] 80 ∧
          assembly.response.diagnostics.skillsInjected = assembly.response.text.skills.length ↔
        (80 < 2 ^ 32 - 1 ∨ skillsCost twoSkills.tools [⟨"c", "C", "", [1]⟩] ≤ 80) ∧
          twoSkills.SkillsWhole reader (inMode .assembled)) := by
  have hsome : (twoSkills.assembleAssembled reader (inMode .assembled)).toOption.isSome := by
    decide +kernel
  obtain ⟨assembly, hok⟩ := Option.isSome_iff_exists.1 hsome
  have hestimate : ∀ text, twoSkills.tools.estimate text < 2 ^ 32 := fun _ =>
    show 40 < 2 ^ 32 by decide
  rw [toOption_eq_some_iff] at hok
  exact ⟨assembly, hok,
    AppState.headerBudgeted_and_reported_iff _ _ _ hestimate (by decide) hestimate hok⟩

end Gradatum.Context
