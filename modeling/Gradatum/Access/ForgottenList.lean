import Gradatum.Reasoning.CursorPages
import Gradatum.Reasoning.Run
import Gradatum.Access.Guard
import Gradatum.Notes.Forget
import Gradatum.Notes.Query

/-!
# The list of forgotten notes

`vault_forgotten_list` serves the forgotten notes of a vault, the last forgotten first.  The cursor of a page is
the id of its last note, and the next page has the notes with a greater id.
-/

open Reasoning

namespace Gradatum.Access

open Notes List Option

/-! ## 1. The query -/

/-- The columns of a row that is forgotten.  `forgotten_at` can be NULL. -/
structure ForgottenRow where
  id : NoteId
  title : Option String
  «section» : String
  forgottenAt : Option Int
  forgottenBy : Option String

def forgottenRow (key : NoteKey) (row : NoteRow) : ForgottenRow :=
  ⟨key.id, row.title, row.section.asStr, row.forgottenAt, row.forgottenBy⟩

/-- `WHERE vault_id = .. AND forgotten = 1`. -/
def forgottenRows (v : IndexedVault) (vault : VaultId) : List ForgottenRow :=
  v.keys.filterMap fun key =>
    if key.vault = vault then ((v.state.notes key).filter (·.forgotten)).map (forgottenRow key) else none

/-- `forgotten_at DESC`, where NULL comes last. -/
def laterMark : Option Int → Option Int → Bool
  | some a, some b => b < a
  | some _, none => true
  | none, _ => false

/-- `ORDER BY forgotten_at DESC, id ASC`. -/
def listedBefore (a b : Option Int × Nat) : Bool :=
  laterMark a.1 b.1 || (a.1 = b.1 && a.2 < b.2)

def ForgottenRow.place (r : ForgottenRow) : Option Int × Nat := (r.forgottenAt, r.id)

/-- What is read of a row; a NULL cannot be read as a number. -/
structure ForgottenNoteEntry where
  ulid : NoteId
  title : Option String
  «section» : String
  forgottenAt : Int
  forgottenBy : Option String
  deriving DecidableEq

def ForgottenRow.read (r : ForgottenRow) : Option ForgottenNoteEntry :=
  r.forgottenAt.map fun forgottenAt => ⟨r.id, r.title, r.section, forgottenAt, r.forgottenBy⟩

/-- One row more than asked for.  `none` is a row that cannot be read. -/
def listForgottenNotes (v : IndexedVault) (vault : VaultId) (limit : Nat) (cursor : Option NoteId) :
    Option (List ForgottenNoteEntry) :=
  ((sortByKey listedBefore ForgottenRow.place
    (beyond ForgottenRow.id (forgottenRows v vault) cursor)).take (min limit 500 + 1)).mapM
      ForgottenRow.read

/-! ## 2. The handler -/

inductive StatusCode where
  | unauthorized
  | forbidden
  | internalServerError
  deriving DecidableEq

structure ForgottenListResponse where
  notes : List ForgottenNoteEntry
  total : Nat
  nextCursor : Option NoteId
  deriving DecidableEq

/-- The vault of the list: that of the token where there are several, and `main` where there is one. -/
def forgottenListVault (policy : Policy) (trust : TrustContext) : Except StatusCode VaultId := do
  require trust.isAuthenticated .unauthorized
  let vault ←
    if policy.multiTenant then
      (present trust.tenantId .forbidden).bind fun principal =>
        (effectiveTenant trust (some principal)).mapError fun _ => .forbidden
    else .ok "main"
  require (policy.acl trust .read s!"{vault}/main") .forbidden
  return vault

def vaultForgottenList (policy : Policy) (v : IndexedVault) (trust : TrustContext) (limit : Nat)
    (cursor : Option NoteId) : Except StatusCode ForgottenListResponse := do
  let vault ← forgottenListVault policy trust
  let limit := max 1 (min limit 500)
  let rows ← present (listForgottenNotes v vault limit cursor) .internalServerError
  let page := cutPage limit ForgottenNoteEntry.ulid rows
  return ⟨page.items, (forgottenRows v vault).length, page.next⟩

/-! ## 3. The marks -/

/-- The three statements that change a mark. -/
inductive MarkOp where
  | mark (now : Instant) (vault : VaultId) (id : NoteId) (forgottenBy : Option String)
  | reassert (vault : VaultId) (id : NoteId)
  | unmark (vault : VaultId) (id : NoteId)

def MarkOp.apply (s : VaultState) : MarkOp → VaultState
  | mark now vault id forgottenBy => (s.markForgotten now vault id forgottenBy).2
  | reassert vault id => (s.reassertForgotten vault id).2
  | unmark vault id => (s.unmarkForgotten vault id).2

theorem isSome_of_setMark {s : VaultState} {id : NoteId}
    (h : (s.setMark vault id f).2.notes key = some row) : (s.notes key).isSome := by
  unfold VaultState.setMark at h
  split at h
  · exact isSome_of_eq_some h
  rename_i hrow
  by_cases hkey : key = ⟨vault, id⟩
  · rw [hkey, hrow]
    rfl
  · rw [VaultState.updateRow_of_ne _ _ hkey] at h
    exact isSome_of_eq_some h

theorem MarkOp.isSome_of_apply {op : MarkOp} (h : (op.apply s).notes key = some row) :
    (s.notes key).isSome := by
  cases op with
  | mark | reassert | unmark => exact isSome_of_setMark h

def applyMark (v : IndexedVault) (op : MarkOp) : IndexedVault :=
  v.update [] (op.apply v.state) fun _ _ h => .inl (op.isSome_of_apply h)

/-! ## 4. The rows in their order -/

theorem strictOrder_listedBefore : StrictOrder listedBefore where
  asymm := by
    rintro ⟨a, i⟩ ⟨b, j⟩ h
    cases a <;> cases b <;> simp [listedBefore, laterMark] at h ⊢ <;> omega
  trans := by
    rintro ⟨a, i⟩ ⟨b, j⟩ ⟨c, k⟩ hab hbc
    cases a <;> cases b <;> cases c <;> simp [listedBefore, laterMark] at hab hbc ⊢ <;> omega
  eq_of_neither := by
    rintro ⟨a, i⟩ ⟨b, j⟩ hab hba
    cases a <;> cases b <;> simp [listedBefore, laterMark] at hab hba ⊢ <;> omega

section Rows

variable (v : IndexedVault) (vault : VaultId)

theorem mem_forgottenRows :
    r ∈ forgottenRows v vault ↔ ∃ row, v.state.notes ⟨vault, r.id⟩ = some row ∧ row.forgotten = true ∧
      forgottenRow ⟨vault, r.id⟩ row = r := by
  unfold forgottenRows
  rw [mem_filterMap]
  constructor
  · rintro ⟨⟨vault', id⟩, -, hr⟩
    split at hr
    · rename_i hvault
      obtain rfl : vault' = vault := hvault
      obtain ⟨row, hrow, rfl⟩ := map_eq_some_iff.1 hr
      obtain ⟨hnote, hforg⟩ := filter_eq_some_iff.1 hrow
      exact ⟨row, hnote, hforg, rfl⟩
    · cases hr
  · rintro ⟨row, hrow, hforg, hr⟩
    refine ⟨⟨vault, r.id⟩, v.covers _ row hrow, ?_⟩
    rw [if_pos rfl, hrow, filter_some, if_pos hforg, map_some, hr]

theorem nodup_id_forgottenRows : ((forgottenRows v vault).map ForgottenRow.id).Nodup := by
  unfold forgottenRows
  rw [map_filterMap]
  refine List.Nodup.filterMap (fun key key' id hkey hkey' => ?_) v.nodup
  have hid : ∀ {key : NoteKey}, id ∈ (if key.vault = vault then
      ((v.state.notes key).filter (·.forgotten)).map (forgottenRow key) else none).map ForgottenRow.id →
      key = ⟨vault, id⟩ := by
    intro key h
    obtain ⟨r, hr, rfl⟩ := map_eq_some_iff.1 h
    split at hr
    · rename_i hvault
      obtain ⟨row, -, rfl⟩ := map_eq_some_iff.1 hr
      rw [← hvault]
      rfl
    · cases hr
  rw [hid hkey, hid hkey']

theorem nodup_place_forgottenRows : ((forgottenRows v vault).map ForgottenRow.place).Nodup := by
  have hid : (forgottenRows v vault).map ForgottenRow.id =
      ((forgottenRows v vault).map ForgottenRow.place).map Prod.snd := by
    rw [List.map_map]
    rfl
  exact List.Nodup.of_map Prod.snd (hid ▸ nodup_id_forgottenRows v vault)

def forgottenListing : List ForgottenRow := sortByKey listedBefore ForgottenRow.place (forgottenRows v vault)

theorem mem_forgottenListing : r ∈ forgottenListing v vault ↔ r ∈ forgottenRows v vault := mem_sortByKey

theorem nodup_forgottenListing : ((forgottenListing v vault).map ForgottenRow.id).Nodup :=
  ((perm_insertionSort _ _).map _).nodup_iff.2 (nodup_id_forgottenRows v vault)

theorem pairwise_forgottenListing :
    (forgottenListing v vault).Pairwise fun a b => listedBefore a.place b.place = true :=
  strictOrder_listedBefore.pairwise_sortByKey (nodup_place_forgottenRows v vault)

theorem sortByKey_beyond (cursor : Option NoteId) :
    sortByKey listedBefore ForgottenRow.place (beyond ForgottenRow.id (forgottenRows v vault) cursor) =
      beyond ForgottenRow.id (forgottenListing v vault) cursor :=
  strictOrder_listedBefore.sortByKey_filter (nodup_place_forgottenRows v vault) _

end Rows

/-! ## 5. The pages of the handler -/

def ForgottenRow.entry (r : ForgottenRow) : ForgottenNoteEntry :=
  ⟨r.id, r.title, r.section, r.forgottenAt.getD 0, r.forgottenBy⟩

def ForgottenRow.timed (r : ForgottenRow) : Bool := r.forgottenAt.isSome

open ForgottenRow (place timed entry)

theorem mapM_read (rows : List ForgottenRow) :
    rows.mapM ForgottenRow.read = if rows.all timed then some (rows.map entry) else none := by
  induction rows with
  | nil => rfl
  | cons r rows ih =>
    rw [mapM_cons, ih, all_cons]
    cases hat : r.forgottenAt with
    | none => simp [ForgottenRow.read, timed, hat]
    | some at_ =>
      simp only [ForgottenRow.read, timed, hat, map_some, isSome_some, Bool.true_and,
        bind_eq_bind, bind_some]
      split
      · simp [entry, hat]
      · rfl

theorem cutPage_map_entry (limit : Nat) (rows : List ForgottenRow) :
    cutPage limit ForgottenNoteEntry.ulid (rows.map entry) =
      ⟨(cutPage limit ForgottenRow.id rows).items.map entry,
        (cutPage limit ForgottenRow.id rows).next⟩ := by
  unfold cutPage
  rw [length_map]
  split
  · rw [← map_take, getLast?_map, Option.map_map]
    rfl
  · rfl

def respond (total : Nat) (page : Page ForgottenRow NoteId) : ForgottenListResponse :=
  ⟨page.items.map entry, total, page.next⟩

section Handler

theorem vaultForgottenList_eq (hvault : forgottenListVault policy trust = .ok vault) (v : IndexedVault)
    (limit : Nat) (cursor : Option NoteId) : (vaultForgottenList policy v trust limit cursor).toOption =
      (askPage (max 1 (min limit 500)) ForgottenRow.id timed (forgottenListing v vault) cursor).map
        (respond (forgottenRows v vault).length) := by
  have hmin : min (max 1 (min limit 500)) 500 = max 1 (min limit 500) := by omega
  have hhandler : vaultForgottenList policy v trust limit cursor =
      (present (listForgottenNotes v vault (max 1 (min limit 500)) cursor) .internalServerError).bind
        fun rows => .ok ⟨(cutPage (max 1 (min limit 500)) ForgottenNoteEntry.ulid rows).items,
          (forgottenRows v vault).length,
          (cutPage (max 1 (min limit 500)) ForgottenNoteEntry.ulid rows).next⟩ := by
    rw [vaultForgottenList, hvault]
    rfl
  rw [hhandler, listForgottenNotes, hmin, sortByKey_beyond, mapM_read, askPage]
  split
  · change some (ForgottenListResponse.mk _ _ _) = some (ForgottenListResponse.mk _ _ _)
    rw [cutPage_map_entry]
  · rfl

end Handler

/-! ## 6. All pages -/

/-- Following the cursors from the first page on gives every forgotten note of the vault once, the last
forgotten first, and no page fails. -/
def PagesComplete (policy : Policy) (v : IndexedVault) (trust : TrustContext) (vault : VaultId)
    (limit : Nat) : Prop :=
  ∃ fuel pages,
    follow (fun cursor => (vaultForgottenList policy v trust limit cursor).toOption)
      ForgottenListResponse.nextCursor fuel none = some pages ∧
    ((pages.flatMap (·.notes)).map (·.ulid)).Nodup ∧
    (∀ id, id ∈ (pages.flatMap (·.notes)).map (·.ulid) ↔
      (v.state.notes ⟨vault, id⟩).any (·.forgotten) = true) ∧
    (pages.flatMap (·.notes)).Pairwise fun a b => b.forgottenAt ≤ a.forgottenAt

/-- Every forgotten note has a time, and at the end of each page the ids agree with the times: the last id
is the greatest so far, and all that follow are greater. -/
def Pageable (v : IndexedVault) (vault : VaultId) (limit : Nat) : Prop :=
  (∀ id row, v.state.notes ⟨vault, id⟩ = some row → row.forgotten = true → row.forgottenAt.isSome) ∧
    Separated (max 1 (min limit 500)) ForgottenRow.id (forgottenListing v vault)

section Complete

variable {v : IndexedVault} {vault : VaultId}

theorem any_forgotten_iff (id : NoteId) : (v.state.notes ⟨vault, id⟩).any (·.forgotten) = true ↔
      id ∈ (forgottenListing v vault).map ForgottenRow.id := by
  rw [Option.any_eq_true, List.mem_map]
  constructor
  · rintro ⟨row, hrow, hforg⟩
    refine ⟨forgottenRow ⟨vault, id⟩ row, (mem_forgottenListing v vault).2 ?_, rfl⟩
    exact (mem_forgottenRows v vault).2 ⟨row, hrow, hforg, rfl⟩
  rintro ⟨r, hr, rfl⟩
  obtain ⟨row, hrow, hforg, -⟩ := (mem_forgottenRows v vault).1 ((mem_forgottenListing v vault).1 hr)
  exact ⟨row, hrow, hforg⟩

theorem timed_iff : (∀ r ∈ forgottenListing v vault, r.timed = true) ↔
      ∀ id row, v.state.notes ⟨vault, id⟩ = some row → row.forgotten = true → row.forgottenAt.isSome := by
  constructor
  · intro h id row hrow hforg
    exact h (forgottenRow ⟨vault, id⟩ row)
      ((mem_forgottenListing v vault).2 ((mem_forgottenRows v vault).2 ⟨row, hrow, hforg, rfl⟩))
  intro h r hr
  obtain ⟨row, hrow, hforg, hread⟩ :=
    (mem_forgottenRows v vault).1 ((mem_forgottenListing v vault).1 hr)
  rw [← hread]
  exact h r.id row hrow hforg

theorem pairwise_entries {rows : List ForgottenRow}
    (hsort : rows.Pairwise fun a b => listedBefore a.place b.place = true)
    (htimed : ∀ r ∈ rows, r.timed = true) :
    (rows.map entry).Pairwise fun a b => b.forgottenAt ≤ a.forgottenAt := by
  rw [pairwise_map]
  refine (List.Pairwise.and_mem.1 hsort).imp ?_
  rintro a b ⟨ha, hb, hbef⟩
  obtain ⟨s, hs⟩ := isSome_iff_exists.1 (htimed a ha)
  obtain ⟨t, ht⟩ := isSome_iff_exists.1 (htimed b hb)
  simp only [listedBefore, place, hs, ht, laterMark, Bool.or_eq_true, decide_eq_true_eq,
    Bool.and_eq_true, Option.some.injEq] at hbef
  simp only [entry, hs, ht, getD_some]
  omega

theorem beyond_none (rows : List ForgottenRow) : beyond ForgottenRow.id rows none = rows := by
  simp [beyond]

variable {policy : Policy} {trust : TrustContext}

theorem follow_vaultForgottenList (hvault : forgottenListVault policy trust = .ok vault) (limit fuel : Nat) :
    follow (fun cursor => (vaultForgottenList policy v trust limit cursor).toOption)
        ForgottenListResponse.nextCursor fuel none =
      (follow (askPage (max 1 (min limit 500)) ForgottenRow.id timed (forgottenListing v vault))
        Page.next fuel none).map (List.map (respond (forgottenRows v vault).length)) := by
  have hask : (fun cursor => (vaultForgottenList policy v trust limit cursor).toOption) = fun cursor =>
      (askPage (max 1 (min limit 500)) ForgottenRow.id timed (forgottenListing v vault) cursor).map
        (respond (forgottenRows v vault).length) := by
    funext cursor
    exact vaultForgottenList_eq hvault v limit cursor
  rw [hask]
  exact follow_map (fun _ => rfl) fuel none

theorem flatMap_notes_respond (total : Nat) (pages : List (Page ForgottenRow NoteId)) :
    (pages.map (respond total)).flatMap (·.notes) = (pages.flatMap Page.items).map entry := by
  rw [flatMap_map, map_flatMap]
  rfl

/-- Paging through the forgotten notes of a vault, in any state of the marks, is complete just when every
mark has a time and ids and times agree wherever a page ends. -/
theorem forgottenList_complete_iff (hvault : forgottenListVault policy trust = .ok vault)
    (v : IndexedVault) (ops : List MarkOp) (limit : Nat) :
    PagesComplete policy (run applyMark v ops) trust vault limit ↔
      Pageable (run applyMark v ops) vault limit := by
  generalize run applyMark v ops = v
  have hpos : 0 < max 1 (min limit 500) := by omega
  have hids : ∀ rows : List ForgottenRow,
      (rows.map entry).map (·.ulid) = rows.map ForgottenRow.id := by
    intro rows
    rw [List.map_map]
    rfl
  constructor
  · rintro ⟨fuel, answers, hfol, hnodup, hmem, -⟩
    rw [follow_vaultForgottenList hvault] at hfol
    obtain ⟨pages, hpages, rfl⟩ := map_eq_some_iff.1 hfol
    rw [flatMap_notes_respond, hids] at hnodup hmem
    have hlist : ∀ r ∈ pages.flatMap Page.items, r ∈ forgottenListing v vault ∧ r.timed = true := by
      intro r hr
      have hserv := mem_of_follow_askPage hpos hpages hr
      rwa [beyond_none] at hserv
    have hsame : ∀ r, r ∈ pages.flatMap Page.items ↔ r ∈ forgottenListing v vault := by
      refine fun r => ⟨fun hr => (hlist r hr).1, fun hr => ?_⟩
      have hid := (hmem r.id).2 ((any_forgotten_iff r.id).2 (List.mem_map_of_mem hr))
      obtain ⟨r', hr', hsameId⟩ := List.mem_map.1 hid
      rwa [← inj_on_of_nodup_map (nodup_forgottenListing v vault) (hlist r' hr').1 hr hsameId]
    have hperm : (pages.flatMap Page.items).Perm (forgottenListing v vault) :=
      (perm_ext_iff_of_nodup hnodup.of_map (nodup_forgottenListing v vault).of_map).2 hsame
    refine ⟨timed_iff.1 fun r hr => ?_, ?_⟩
    · exact (hlist r ((hsame r).2 hr)).2
    have hsep := separated_of_follow_perm hpos (nodup_forgottenListing v vault).of_map hpages
      (by rw [beyond_none]; exact hperm)
    rwa [beyond_none] at hsep
  · rintro ⟨htimed, hsep⟩
    have hvalid := timed_iff.2 htimed
    obtain ⟨pages, hpages⟩ := isSome_iff_exists.1
      (follow_askPage_isSome hpos hvalid
        (Nat.lt_succ_self (beyond ForgottenRow.id (forgottenListing v vault) none).length))
    have hall := follow_askPage_eq hpos hpages (by rwa [beyond_none])
    rw [beyond_none] at hall
    refine ⟨(beyond ForgottenRow.id (forgottenListing v vault) none).length + 1,
      pages.map (respond (forgottenRows v vault).length), ?_, ?_, ?_, ?_⟩
    · rw [follow_vaultForgottenList hvault, hpages, map_some]
    · rw [flatMap_notes_respond, hids, hall]
      exact nodup_forgottenListing v vault
    · intro id
      rw [flatMap_notes_respond, hids, hall]
      exact (any_forgotten_iff id).symm
    · rw [flatMap_notes_respond, hall]
      exact pairwise_entries (pairwise_forgottenListing v vault) hvalid

end Complete

def twoNotes : IndexedVault :=
  (IndexedVault.ofNote (plainNote 1 none "one")).add (fun _ => ⟨none, none⟩) (plainNote 2 none "two")

/-- The note 1 is forgotten first, and the note 2 a second later. -/
def twoMarks : List MarkOp := [.mark 1000000000 "main" 1 none, .mark 2000000000 "main" 2 none]

def fallingMarks : List MarkOp := [.mark 1000000000 "main" 2 none, .mark 2000000000 "main" 1 none]

/-- The cursor of the first page is the id 1, and the note 2 is beyond it. -/
theorem forgottenList_complete_iff_twoPages :
    forgottenListVault plainPolicy (bearerOf "main") = .ok "main" ∧
      (vaultForgottenList plainPolicy (run applyMark twoNotes fallingMarks) (bearerOf "main") 1
        none).toOption.bind (·.nextCursor) = some 1 ∧
      PagesComplete plainPolicy (run applyMark twoNotes fallingMarks) (bearerOf "main") "main" 1 := by
  have hvault : forgottenListVault plainPolicy (bearerOf "main") = .ok "main" := by decide +kernel
  refine ⟨hvault, by decide +kernel, (forgottenList_complete_iff hvault twoNotes _ 1).2 ⟨?_, ?_⟩⟩
  · exact timed_iff.1 (List.all_eq_true.1 (by decide +kernel))
  obtain ⟨a, b, hrows, hlt⟩ : ∃ a b, forgottenListing (run applyMark twoNotes fallingMarks) "main" = [a, b] ∧
      a.id < b.id := ⟨_, _, rfl, by decide⟩
  rw [hrows]
  refine (separated_iff Nat.one_pos ?_).2 ⟨?_, separated_of_length_le (Nat.le_refl 1)⟩
  · exact Nat.one_lt_two
  · simpa [Cut] using hlt

/-- The cursor of the first page is the id 2, and no id beyond it is left: the note 1 is never listed.  And a
mark that is restored without one having been made has no time, and the first page fails. -/
theorem forgottenList_cut_short :
    ¬ PagesComplete plainPolicy (run applyMark twoNotes twoMarks) (bearerOf "main") "main" 1 ∧
      ¬ PagesComplete plainPolicy (run applyMark twoNotes [.reassert "main" 1]) (bearerOf "main") "main"
        1 := by
  constructor
  · rintro ⟨fuel, pages, hfol, -, hmem, -⟩
    have hfirst : (vaultForgottenList plainPolicy (run applyMark twoNotes twoMarks) (bearerOf "main") 1
        none).toOption = some ⟨[⟨2, none, "debug", 2000, none⟩], 2, some 2⟩ := by decide +kernel
    have hsnd : (vaultForgottenList plainPolicy (run applyMark twoNotes twoMarks) (bearerOf "main") 1
        (some 2)).toOption = some ⟨[], 2, none⟩ := by decide +kernel
    have hforg := (hmem 1).2 (by decide +kernel)
    match fuel with
    | 0 => cases hfol
    | 1 =>
      rw [follow, hfirst] at hfol
      cases hfol
    | fuel + 2 =>
      rw [follow, hfirst, bind_some] at hfol
      dsimp only at hfol
      rw [follow, hsnd] at hfol
      obtain rfl := Option.some.inj hfol
      simp at hforg
  · rintro ⟨fuel, pages, hfol, -, -, -⟩
    have hfirst : (vaultForgottenList plainPolicy (run applyMark twoNotes [.reassert "main" 1])
        (bearerOf "main") 1 none).toOption = none := by decide +kernel
    cases fuel with
    | zero => cases hfol
    | succ fuel =>
      rw [follow, hfirst] at hfol
      cases hfol

end Gradatum.Access
