import Gradatum.Notes.Store

/-!
# Queries

What the index answers when it is asked for the notes of a vault that meet a condition.  The order of
an answer is SQLite's own where the statement has no `ORDER BY`, so an answer is any list that has the
right members.
-/

namespace Gradatum.Notes

/-! ## 1. Texts -/

def crockford : List Char := "0123456789ABCDEFGHJKMNPQRSTVWXYZ".toList

/-- `Ulid::to_string`: 26 digits, the highest first. -/
def ulidText (id : NoteId) : String :=
  String.ofList ((List.range 26).reverse.map fun i => crockford.getD (id / 32 ^ i % 32) '0')

/-- `text LIKE start || '%'` with `start` escaped: `LIKE` folds the case of ASCII letters only. -/
def likeStart (start text : String) : Bool :=
  (start.toList.map Char.toLower).isPrefixOf (text.toList.map Char.toLower)

def vaultIdMaxLen : Nat := 64

def VaultId.parse (s : String) : Except String VaultId :=
  let bytes := s.utf8ByteSize
  let quoted := s.quote
  if s = "" then .error "empty vault_id"
  else if vaultIdMaxLen < bytes then
    .error s!"vault_id too long ({bytes} > {vaultIdMaxLen} bytes)"
  else if !s.toList.all fun c => c.isLower || c.isDigit || c = '-' then
    .error s!"forbidden charset in {quoted} (allowed: a-z 0-9 -)"
  else if s.toList.head? = some '-' ∨ s.toList.getLast? = some '-' then
    .error s!"leading or trailing dash forbidden in {quoted}"
  else .ok s

theorem VaultId.parse_ok (h : VaultId.parse text = .ok parsed) : parsed = text := by
  unfold VaultId.parse at h
  dsimp only at h
  split at h
  · cases h
  split at h
  · cases h
  split at h
  · cases h
  split at h
  · cases h
  · cases h
    rfl

/-- What the index answers in the state `s` to `SELECT id FROM notes WHERE vault_id = .. AND ..`. -/
structure Answers (s : VaultState) where
  select : VaultId → (NoteRow → Bool) → List NoteId
  mem_select : ∀ vault cond id,
    id ∈ select vault cond ↔ ∃ row, s.notes ⟨vault, id⟩ = some row ∧ cond row = true

def Answers.ofKeys {s : VaultState} (keys : List NoteKey)
    (hkeys : ∀ key row, s.notes key = some row → key ∈ keys) : Answers s where
  select vault cond := keys.filterMap fun key =>
    if key.vault = vault ∧ (s.notes key).any cond then some key.id else none
  mem_select := by
    intro vault cond id
    rw [List.mem_filterMap]
    constructor
    · intro ⟨key, _, hkey⟩
      split at hkey
      · rename_i hmeets
        cases hkey
        rw [Option.any_eq_true] at hmeets
        obtain ⟨hvault, row, hrow, hcond⟩ := hmeets
        subst hvault
        exact ⟨row, hrow, hcond⟩
      · cases hkey
    · intro ⟨row, hrow, hcond⟩
      refine ⟨⟨vault, id⟩, hkeys _ row hrow, ?_⟩
      rw [if_pos]
      exact ⟨rfl, by rw [hrow]; exact hcond⟩

/-! ## 2. A vault whose rows can be listed -/

structure IndexedVault where
  state : VaultState
  keys : List NoteKey
  nodup : keys.Nodup
  covers : ∀ key row, state.notes key = some row → key ∈ keys

variable (v : IndexedVault)

def IndexedVault.answers : Answers v.state := .ofKeys v.keys v.covers

theorem IndexedVault.nodup_select (vault : VaultId) (cond : NoteRow → Bool) :
    (v.answers.select vault cond).Nodup := by
  apply v.nodup.filterMap
  intro key key' id hid hid'
  simp only [Option.mem_def, Option.ite_none_right_eq_some, Option.some.injEq] at hid hid'
  obtain ⟨⟨hvault, -⟩, hid⟩ := hid
  obtain ⟨⟨hvault', -⟩, hid'⟩ := hid'
  cases key
  cases key'
  simp_all

def IndexedVault.update (added : List NoteKey) (s : VaultState)
    (h : ∀ key row, s.notes key = some row → (v.state.notes key).isSome ∨ key ∈ added) :
    IndexedVault where
  state := s
  keys := added ∪ v.keys
  nodup := List.Nodup.union added v.nodup
  covers := by
    intro key row hrow
    rw [List.mem_union_iff]
    rcases h key row hrow with hold | hnew
    · obtain ⟨old, hkey⟩ := Option.isSome_iff_exists.1 hold
      exact .inr (v.covers key old hkey)
    · exact .inl hnew

def IndexedVault.ofNote (note : Note) : IndexedVault where
  state := stateOf note
  keys := [⟨note.frontmatter.vaultId, note.id⟩]
  nodup := List.nodup_singleton _
  covers := by
    intro key row hrow
    by_cases hkey : key = ⟨note.frontmatter.vaultId, note.id⟩
    · rw [hkey]
      exact List.mem_cons_self
    · rw [stateOf_notes_of_ne hkey] at hrow
      cases hrow

def IndexedVault.empty : IndexedVault where
  state := ⟨fun _ => none, fun _ _ => [], fun _ => none⟩
  keys := []
  nodup := List.nodup_nil
  covers := by
    intro key row hrow
    cases hrow

def IndexedVault.add (rolesOfBody : String → ProjectMapRoles) (note : Note) : IndexedVault :=
  let key : NoteKey := ⟨note.frontmatter.vaultId, note.id⟩
  v.update [key]
    { v.state with
      files := Function.update v.state.files (noteMdRelativePath note) (some note.file)
      notes := Function.update v.state.notes key (some (rowOfNote rolesOfBody note)) }
    (by
      intro key' row hrow
      by_cases hkey : key' = key
      · exact .inr (List.mem_singleton.2 hkey)
      · have hold : v.state.notes key' = some row := (Function.update_of_ne hkey _ _).symm.trans hrow
        exact .inl (Option.isSome_of_eq_some hold))

end Gradatum.Notes
