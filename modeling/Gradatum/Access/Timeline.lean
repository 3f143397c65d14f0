import Gradatum.Access.ReadGuard
import Gradatum.Reasoning.Paging
import Gradatum.Reasoning.Table

/-!
# The timeline

`vault_timeline` lists the notes of a vault from the newest to the oldest.  The notes that `PrivacyReadGuard`
withholds are dropped from the raw pages of the index.
-/

open Reasoning

namespace Gradatum.Access

open Notes List ReadPolicy

/-! ## 1. The temporal index -/

def isUlidText (text : String) : Bool :=
  text.length = 26 && text.toList.all crockford.contains

structure TemporalEntry where
  vaultId : VaultId
  noteId : String
  anchorMs : Int
  anchorSrc : String
  docKind : String
  validUntilMs : Option Int
  isUlid : isUlidText noteId = true
  anchorRange : -2 ^ 63 ≤ anchorMs ∧ anchorMs < 2 ^ 63

structure NoteColumns where
  title : Option String
  «section» : String
  status : RowStatus
  tagsRaw : Option String
  deriving DecidableEq

abbrev TimelineRow := TemporalEntry × NoteColumns

structure TemporalIndex where
  entries : Table fun e : TemporalEntry => (e.vaultId, e.noteId)
  notes : VaultId → String → Option NoteColumns

/-- `JOIN notes n ON n.id = t.note_id AND n.vault_id = t.vault_id`. -/
def TemporalIndex.joined (index : TemporalIndex) : List TimelineRow :=
  index.entries.rows.filterMap fun e => (index.notes e.vaultId e.noteId).map (e, ·)

def TemporalIndex.without (index : TemporalIndex) (p : VaultId → NoteColumns → Bool) :
    TemporalIndex where
  entries := index.entries.deleteWhere fun e => (index.notes e.vaultId e.noteId).any (p e.vaultId)
  notes := fun vault id => (index.notes vault id).filter fun n => !p vault n

/-! ## 2. Cursors -/

structure TimelineCursor where
  anchorMs : Int
  noteId : String
  deriving DecidableEq

/-- `{}` of an `i64`. -/
def decimal (i : Int) : List Char :=
  if i < 0 then '-' :: Nat.toDigits 10 i.natAbs else Nat.toDigits 10 i.natAbs

namespace TimelineCursor

def encode (cursor : TimelineCursor) : String :=
  String.ofList (decimal cursor.anchorMs ++ '.' :: cursor.noteId.toList)

def decode (text : String) : Except String TimelineCursor :=
  match text.toList.dropWhile (· ≠ '.') with
  | [] => .error "malformed cursor: missing separator"
  | _ :: id =>
    match parseI64 (String.ofList (text.toList.takeWhile (· ≠ '.'))) with
    | none => .error "malformed cursor: anchor_ms"
    | some anchorMs =>
      if id = [] then .error "malformed cursor: empty note_id"
      else if 32 < (String.ofList id).utf8ByteSize then
        .error "malformed cursor: oversized note_id"
      else .ok ⟨anchorMs, String.ofList id⟩

def precedes (a b : TimelineCursor) : Bool :=
  b.anchorMs < a.anchorMs || (b.anchorMs = a.anchorMs && b.noteId < a.noteId)

end TimelineCursor

def TimelineRow.cursor (row : TimelineRow) : TimelineCursor := ⟨row.1.anchorMs, row.1.noteId⟩

/-! ## 3. Requests -/

structure VaultTimelineRequest where
  tenantId : Option VaultId
  vaultId : Option VaultId
  docKind : Option (List String)
  fromMs : Option Int
  toMs : Option Int
  limit : Option Nat
  cursor : Option String
  asOfMs : Option Int
  includeExpired : Bool

structure TimelineItem where
  noteId : String
  anchorMs : Int
  anchorSrc : String
  docKind : String
  title : Option String
  deriving DecidableEq

structure VaultTimelineResponse where
  items : List TimelineItem
  nextCursor : Option String
  deriving DecidableEq

def TimelineRow.item (row : TimelineRow) : TimelineItem :=
  ⟨row.1.noteId, row.1.anchorMs, row.1.anchorSrc, row.1.docKind, row.2.title⟩

/-- The conditions of the query but for the cursor.  No ULID looks like a sentinel. -/
def VaultTimelineRequest.selects (req : VaultTimelineRequest) (vault : VaultId) (row : TimelineRow) :
    Bool :=
  row.1.vaultId = vault && row.2.status ≠ .of .garbage &&
    !(Section.protectedForget.map Section.asStr).contains row.2.section &&
    ((req.docKind.getD []).isEmpty || (req.docKind.getD []).contains row.1.docKind) &&
    req.fromMs.all (· ≤ row.1.anchorMs) && req.toMs.all (row.1.anchorMs ≤ ·) &&
    req.asOfMs.all fun t =>
      row.1.anchorMs ≤ t && (req.includeExpired || row.1.validUntilMs.all (t < ·))

def VaultTimelineRequest.pageLimit (req : VaultTimelineRequest) : Nat :=
  max 1 (min 200 (req.limit.getD 50))

def TemporalIndex.timeline (index : TemporalIndex) (req : VaultTimelineRequest) (vault : VaultId) :
    Option TimelineCursor → List TimelineRow :=
  keysetQuery TimelineCursor.precedes TimelineRow.cursor req.pageLimit (req.selects vault)
    (fun _ => true) index.joined

def knownDocKinds : List String := ["Static", "Event", "Versioned"]

namespace ReadPolicy

variable (policy : ReadPolicy) (trust : TrustContext)

def timelineTarget (tenant : VaultId) (reqVault : Option VaultId) : Except ApiError VaultId := do
  if policy.multiTenant then
    policy.effectiveReadVault trust tenant reqVault (some "timeline") "acl deny timeline"
  else
    require (policy.acl trust .read s!"{tenant}/timeline") (.forbidden "acl deny timeline")
    return reqVault.getD tenant

def validatedRange (req : VaultTimelineRequest) : Except ApiError Unit :=
  require (req.fromMs.all fun f => req.toMs.all fun t => f ≤ t) (.invalidInput "from_ms > to_ms")

def validatedDocKinds (kinds : List String) : Except ApiError Unit := do
  require (kinds.length ≤ knownDocKinds.length) (.invalidInput "too many doc_kind")
  require (kinds.all knownDocKinds.contains) (.invalidInput "doc_kind hors allowlist")

/-- Where there is one vault, a request may name that one only. -/
def validatedMonoVault (reqVault : Option VaultId) : Except ApiError Unit := do
  if policy.multiTenant then
    return
  require (reqVault.all fun v => v ≠ "" && v.utf8ByteSize ≤ 128) (.invalidInput "invalid vault_id")
  require (reqVault.all (· = "main")) (.forbidden "cross-read vault_id ≠ main not supported")

def timelineVault (req : VaultTimelineRequest) : Except ApiError VaultId := do
  require trust.isAuthenticated .unauthorized
  let tenant ← orForbidden "tenant cross mismatch" (effectiveTenant trust req.tenantId)
  let vault ← policy.timelineTarget trust tenant req.vaultId
  validatedRange req
  validatedDocKinds (req.docKind.getD [])
  policy.validatedMonoVault req.vaultId
  return vault

def decodeCursor : Option String → Except ApiError (Option TimelineCursor)
  | none => .ok none
  | some text =>
    match TimelineCursor.decode text with
    | .ok cursor => .ok (some cursor)
    | .error _ => .error (.invalidInput "malformed cursor")

/-- `PrivacyReadGuard` lets the note through. -/
def showsRow (vault : VaultId) (row : TimelineRow) : Bool :=
  !policy.hidesTags trust vault row.2.tagsRaw

/-- `none` is a loop that has not ended. -/
def vaultTimeline (index : TemporalIndex) (req : VaultTimelineRequest) (fuel : Nat) :
    Option (Except ApiError VaultTimelineResponse) :=
  match policy.timelineVault trust req, decodeCursor req.cursor with
  | .error e, _ => some (.error e)
  | .ok _, .error e => some (.error e)
  | .ok vault, .ok cursor =>
    (fill req.pageLimit true (policy.showsRow trust vault) TimelineRow.cursor
      (index.timeline req vault) fuel cursor []).map fun page =>
        .ok ⟨page.items.map TimelineRow.item, page.next.map TimelineCursor.encode⟩

end ReadPolicy

/-! ## 4. A cursor is read back -/

theorem foldl_digits (hdigs : ∀ c ∈ digits, c.isDigit = true) (n : Nat) :
    digits.foldl (fun (n : Int) c => 10 * n + (c.toNat - '0'.toNat)) (n : Int) =
      (Nat.ofDigitChars 10 digits n : Nat) := by
  induction digits generalizing n with
  | nil => rfl
  | cons c rest ih =>
    have hc : '0'.toNat ≤ c.toNat := by
      have := hdigs c mem_cons_self
      simp only [Char.isDigit, Bool.and_eq_true, decide_eq_true_eq] at this
      exact this.1
    have hcast : (10 * (n : Int) + ((c.toNat : Int) - ('0'.toNat : Int))) =
        ((10 * n + (c.toNat - '0'.toNat) : Nat) : Int) := by
      omega
    rw [foldl_cons, hcast, ih fun c' h => hdigs c' (mem_cons_of_mem _ h)]
    rfl

theorem parseI64_decimal (hlow : -2 ^ 63 ≤ i) (hhigh : i < 2 ^ 63) :
    parseI64 (String.ofList (decimal i)) = some i := by
  have hdigs : ∀ c ∈ Nat.toDigits 10 i.natAbs, c.isDigit = true := fun c hc =>
    Nat.isDigit_of_mem_toDigits (by omega) (by omega) hc
  have hne : Nat.toDigits 10 i.natAbs ≠ [] := Nat.toDigits_ne_nil
  have hvalue := foldl_digits hdigs 0
  rw [Nat.ofDigitChars_toDigits (by omega) (by omega)] at hvalue
  have hall : (Nat.toDigits 10 i.natAbs).all Char.isDigit = true := all_eq_true.2 hdigs
  rw [Int.natCast_zero] at hvalue
  unfold parseI64 decimal
  rw [String.toList_ofList]
  by_cases hneg : i < 0
  · have habs : -(i.natAbs : Int) = i := by omega
    rw [if_pos hneg]
    split
    rename_i negative digits hsplit
    split at hsplit
    · rename_i rest hcons
      cases hcons
      cases hsplit
      dsimp only
      rw [hvalue, habs, if_pos rfl, if_pos ⟨hne, hall, hlow, hhigh⟩]
    · rename_i rest hcons
      exact absurd (List.cons.inj hcons).1 (by decide)
    · rename_i hminus _
      exact absurd rfl (hminus _)
  · have habs : (i.natAbs : Int) = i := by omega
    rw [if_neg hneg]
    split
    rename_i negative digits hsplit
    split at hsplit
    · rename_i rest hcons
      exact absurd (hdigs '-' (by rw [hcons]; exact mem_cons_self)) (by decide)
    · rename_i rest hcons
      exact absurd (hdigs '+' (by rw [hcons]; exact mem_cons_self)) (by decide)
    · cases hsplit
      dsimp only
      rw [hvalue, habs, if_neg Bool.false_ne_true, if_pos ⟨hne, hall, hlow, hhigh⟩]

theorem dot_notMem_decimal (i : Int) : '.' ∉ decimal i := by
  have hdigs : '.' ∉ Nat.toDigits 10 i.natAbs := by
    intro hmem
    exact absurd (Nat.isDigit_of_mem_toDigits (by omega) (by omega) hmem) (by decide)
  unfold decimal
  split
  · rw [mem_cons, not_or]
    exact ⟨by decide, hdigs⟩
  · exact hdigs

theorem utf8ByteSize_of_crockford (h : ∀ c ∈ cs, c ∈ crockford) :
    (String.ofList cs).utf8ByteSize = cs.length := by
  have hsize : ∀ c ∈ crockford, c.utf8Size = 1 :=
    @of_decide_eq_true _ (List.decidableBAll _ _) rfl
  induction cs with
  | nil => rfl
  | cons c rest ih =>
    rw [String.ofList_cons, String.utf8ByteSize_append, String.utf8ByteSize_singleton,
      hsize c (h c mem_cons_self), ih fun c' hc' => h c' (mem_cons_of_mem _ hc'),
      length_cons]
    omega

theorem TemporalEntry.noteId_bounds (e : TemporalEntry) :
    e.noteId.toList ≠ [] ∧ e.noteId.utf8ByteSize = 26 := by
  have hulid := e.isUlid
  rw [isUlidText, Bool.and_eq_true, decide_eq_true_eq, all_eq_true] at hulid
  have hlen : e.noteId.toList.length = 26 := by rw [String.length_toList]; exact hulid.1
  constructor
  · intro hnil
    rw [hnil] at hlen
    cases hlen
  have hsize := utf8ByteSize_of_crockford fun c hc => contains_iff_mem.1 (hulid.2 c hc)
  rw [String.ofList_toList, hlen] at hsize
  exact hsize

theorem decode_encode_cursor (row : TimelineRow) :
    TimelineCursor.decode row.cursor.encode = .ok row.cursor := by
  obtain ⟨hne, hsize⟩ := row.1.noteId_bounds
  have hdot : ∀ c ∈ decimal row.1.anchorMs, decide (c ≠ '.') = true := by
    intro c hc
    rw [decide_eq_true_eq]
    intro heq
    exact dot_notMem_decimal _ (heq ▸ hc)
  have htake : ((decimal row.1.anchorMs) ++ '.' :: row.1.noteId.toList).takeWhile (· ≠ '.') =
      decimal row.1.anchorMs := by
    rw [takeWhile_append_of_pos hdot]
    simp
  have hdrop : ((decimal row.1.anchorMs) ++ '.' :: row.1.noteId.toList).dropWhile (· ≠ '.') =
      '.' :: row.1.noteId.toList := by
    rw [dropWhile_append_of_pos hdot]
    simp
  rw [TimelineCursor.decode, TimelineCursor.encode, String.toList_ofList]
  show (match ((decimal row.1.anchorMs) ++ '.' :: row.1.noteId.toList).dropWhile (· ≠ '.') with
    | [] => _ | _ :: id => _) = _
  rw [hdrop]
  dsimp only [TimelineRow.cursor]
  rw [htake, parseI64_decimal row.1.anchorRange.1 row.1.anchorRange.2]
  dsimp only
  rw [if_neg hne, String.ofList_toList, if_neg (by omega)]

/-! ## 5. The rows of a request -/

theorem strictOrder_precedes : StrictOrder TimelineCursor.precedes where
  asymm a b h := by
    simp only [TimelineCursor.precedes, Bool.or_eq_true, Bool.and_eq_true, decide_eq_true_eq,
      Bool.or_eq_false_iff, Bool.and_eq_false_iff, decide_eq_false_iff_not] at h ⊢
    rcases h with h | ⟨heq, h⟩
    · exact ⟨by omega, .inl (by omega)⟩
    · exact ⟨by omega, .inr (String.lt_asymm h)⟩
  trans a b c hab hbc := by
    simp only [TimelineCursor.precedes, Bool.or_eq_true, Bool.and_eq_true, decide_eq_true_eq]
      at hab hbc ⊢
    rcases hab with hab | ⟨hab, hab'⟩
    · left
      rcases hbc with hbc | ⟨hbc, -⟩
      · omega
      · omega
    · rcases hbc with hbc | ⟨hbc, hbc'⟩
      · left
        omega
      · exact .inr ⟨by omega, String.lt_trans hbc' hab'⟩
  eq_of_neither a b hab hba := by
    simp only [TimelineCursor.precedes, Bool.or_eq_false_iff, Bool.and_eq_false_iff,
      decide_eq_false_iff_not] at hab hba
    have hanchor : a.anchorMs = b.anchorMs := by omega
    have hid : a.noteId = b.noteId :=
      String.le_antisymm (String.not_lt.1 (hab.2.resolve_left (by omega)))
        (String.not_lt.1 (hba.2.resolve_left (by omega)))
    cases a
    cases b
    cases hanchor
    cases hid
    rfl

namespace TemporalIndex

variable (index : TemporalIndex) (req : VaultTimelineRequest) (vault : VaultId)

theorem map_fst_joined : index.joined.map Prod.fst =
      index.entries.rows.filter fun e => (index.notes e.vaultId e.noteId).isSome := by
  unfold joined
  induction index.entries.rows with
  | nil => rfl
  | cons e rest ih =>
    rw [filterMap_cons]
    cases hnote : index.notes e.vaultId e.noteId with
    | none | some => simp [hnote, ih]

theorem joined_without (p : VaultId → NoteColumns → Bool) :
    (index.without p).joined = index.joined.filter fun row => !p row.1.vaultId row.2 := by
  unfold joined without Table.deleteWhere
  dsimp only
  induction index.entries.rows with
  | nil => rfl
  | cons e rest ih =>
    cases hnote : index.notes e.vaultId e.noteId with
    | none => simp [hnote, ih]
    | some n => cases hp : p e.vaultId n <;> simp [hnote, hp, ih]

def rows : List TimelineRow :=
  sortByKey TimelineCursor.precedes TimelineRow.cursor (index.joined.filter (req.selects vault))

theorem nodup_cursor : ((index.joined.filter (req.selects vault)).map TimelineRow.cursor).Nodup := by
  have hkeys : (index.joined.map fun row => (row.1.vaultId, row.1.noteId)).Nodup := by
    have hsub : ((index.joined.map Prod.fst).map fun e => (e.vaultId, e.noteId)).Nodup := by
      rw [map_fst_joined]
      exact index.entries.nodup.sublist (filter_sublist.map _)
    rwa [map_map] at hsub
  rw [List.Nodup, pairwise_map] at hkeys ⊢
  refine (hkeys.sublist filter_sublist).imp_of_mem ?_
  intro a b ha hb hne hcurs
  have hvault : ∀ row ∈ index.joined.filter (req.selects vault), row.1.vaultId = vault := by
    intro row hrow
    have hsel := (mem_filter.1 hrow).2
    simp only [VaultTimelineRequest.selects, Bool.and_eq_true, decide_eq_true_eq] at hsel
    exact hsel.1.1.1.1.1.1
  exact hne (Prod.ext ((hvault a ha).trans (hvault b hb).symm) (congrArg TimelineCursor.noteId hcurs))

end TemporalIndex

/-! ## 6. The pages a client sees -/

def nextPage : Except ApiError VaultTimelineResponse → Option String
  | .ok response => response.nextCursor
  | .error _ => none

def seen (answer : Except ApiError VaultTimelineResponse) :
    Except ApiError (List TimelineItem × Bool) :=
  answer.map fun response => (response.items, response.nextCursor.isSome)

namespace ReadPolicy

variable (policy : ReadPolicy) (trust : TrustContext) (index : TemporalIndex)
  (req : VaultTimelineRequest)

def timelinePages (fuel : Nat) : Option (List (Except ApiError VaultTimelineResponse)) :=
  follow (fun cursor => policy.vaultTimeline trust index { req with cursor := cursor } fuel) nextPage
    fuel none

def withoutHidden : TemporalIndex :=
  index.without fun vault note => policy.hidesTags trust vault note.tagsRaw

/-- The pages are those of an index without the hidden notes, and show every other note of an accepted
request once and in order. -/
def HiddenLeaveNoTrace : Prop :=
  ∀ fuel, index.entries.rows.length < fuel →
    ∃ pages reduced, policy.timelinePages trust index req fuel = some pages ∧
      policy.timelinePages trust (policy.withoutHidden trust index) req fuel = some reduced ∧
      pages.map seen = reduced.map seen ∧
      ∀ vault, policy.timelineVault trust req = .ok vault →
        (pages.flatMap fun answer => (answer.map (·.items)).toOption.getD []) =
          ((index.rows req vault).filter (policy.showsRow trust vault)).map TimelineRow.item

/-- Wherever a page starts, if there are enough notes to fill it then the raw pages that the index
fills have enough of them. -/
def FilledFromFullPages : Prop :=
  ∀ vault, policy.timelineVault trust req = .ok vault →
    ∀ start, PageStart req.pageLimit (policy.showsRow trust vault) (index.rows req vault) start →
      req.pageLimit ≤ (start.filter (policy.showsRow trust vault)).length →
      req.pageLimit ≤ ((start.take (start.length / req.pageLimit * req.pageLimit)).filter
        (policy.showsRow trust vault)).length

variable {policy trust index req}

theorem pageLimit_pos (req : VaultTimelineRequest) : 0 < req.pageLimit := by
  unfold VaultTimelineRequest.pageLimit
  omega

def answerOf (page : Page TimelineRow String) : Except ApiError VaultTimelineResponse :=
  .ok ⟨page.items.map TimelineRow.item, page.next⟩

theorem length_rows_le (index : TemporalIndex) (req : VaultTimelineRequest) (vault : VaultId) :
    (index.rows req vault).length ≤ index.entries.rows.length := by
  calc (index.rows req vault).length
      = (index.joined.filter (req.selects vault)).length := length_insertionSort _ _
    _ ≤ index.joined.length := length_filter_le _ _
    _ ≤ index.entries.rows.length := length_filterMap_le _ _

theorem pager_vaultTimeline (hvault : policy.timelineVault trust req = .ok vault)
    (hfuel : index.entries.rows.length < fuel) :
    Pager req.pageLimit true (policy.showsRow trust vault) (fun _ => true)
      (fun row => row.cursor.encode) (index.rows req vault)
      (fun cursor => policy.vaultTimeline trust index { req with cursor := cursor } fuel) nextPage
      answerOf where
  pos := pageLimit_pos req
  next_answer _ := rfl
  asks := by
    intro text start full short hat hraw
    -- the text of the cursor is read back
    obtain ⟨cursor, hdecode, hat'⟩ : ∃ cursor, decodeCursor text = .ok cursor ∧
        At TimelineRow.cursor (index.rows req vault) cursor start := by
      cases hat with
      | start => exact ⟨none, rfl, .start⟩
      | after before row _ split =>
        refine ⟨some row.cursor, ?_, .after before row _ split⟩
        rw [decodeCursor, decode_encode_cursor]
    have hserv : Serves req.pageLimit (fun _ => true) TimelineRow.cursor (index.rows req vault)
        (index.timeline req vault) :=
      strictOrder_precedes.serves_keysetQuery (index.nodup_cursor req vault)
    have hpage : fill req.pageLimit true (policy.showsRow trust vault) TimelineRow.cursor
        (index.timeline req vault) fuel cursor [] = some _ :=
      hraw.fill_eq hserv (pageLimit_pos req) hat' ((length_rows_le index req vault).trans_lt hfuel)
    have htgt : policy.timelineVault trust { req with cursor := text } = .ok vault := hvault
    unfold vaultTimeline
    rw [htgt, hdecode]
    dsimp only
    rw [pageFrom_comp]
    exact congrArg _ hpage

theorem rows_withoutHidden (policy : ReadPolicy) (trust : TrustContext) (index : TemporalIndex)
    (req : VaultTimelineRequest) (vault : VaultId) : (policy.withoutHidden trust index).rows req vault =
      (index.rows req vault).filter (policy.showsRow trust vault) := by
  have hsame : ((policy.withoutHidden trust index).joined.filter (req.selects vault)) =
      (index.joined.filter (req.selects vault)).filter (policy.showsRow trust vault) := by
    rw [withoutHidden, TemporalIndex.joined_without, filter_filter, filter_filter]
    apply filter_congr
    intro row _
    by_cases hvault : row.1.vaultId = vault
    · rw [hvault, Bool.and_comm]
      rfl
    have hsel : req.selects vault row = false := by
      rw [VaultTimelineRequest.selects, decide_eq_false hvault]
      rfl
    rw [hsel, Bool.false_and, Bool.and_false]
  rw [TemporalIndex.rows, hsame, strictOrder_precedes.sortByKey_filter (index.nodup_cursor req vault)]
  rfl

theorem length_withoutHidden_le (policy : ReadPolicy) (trust : TrustContext) (index : TemporalIndex) :
    (policy.withoutHidden trust index).entries.rows.length ≤ index.entries.rows.length :=
  length_filter_le _ _

theorem timelinePages_of_error (he : policy.timelineVault trust req = .error e) (hfuel : 0 < fuel) :
    policy.timelinePages trust index req fuel = some [.error e] := by
  obtain ⟨fuel, rfl⟩ : ∃ n, fuel = n + 1 := ⟨fuel - 1, by omega⟩
  have he' : policy.timelineVault trust { req with cursor := none } = .error e := he
  rw [timelinePages, follow, vaultTimeline, he']
  rfl

section Accepted

variable {vault : VaultId} (hvault : policy.timelineVault trust req = .ok vault) {fuel : Nat}
  (hfuel : index.entries.rows.length < fuel)

include hvault hfuel

theorem timelinePages_withoutHidden :
    policy.timelinePages trust (policy.withoutHidden trust index) req fuel =
      some ((idealPages req.pageLimit (fun row => row.cursor.encode)
        ((index.rows req vault).filter (policy.showsRow trust vault))).map answerOf) := by
  have hpager := pager_vaultTimeline hvault
    (Nat.lt_of_le_of_lt (length_withoutHidden_le policy trust index) hfuel)
  rw [rows_withoutHidden] at hpager
  have hgood : GoodPages req.pageLimit true (policy.showsRow trust vault) (fun _ => true)
      ((index.rows req vault).filter (policy.showsRow trust vault)) :=
    goodPages_of_forall_visible (pageLimit_pos req) fun row hrow => (mem_filter.1 hrow).2
  have hlen := (length_filter_le (policy.showsRow trust vault) (index.rows req vault)).trans
    (length_rows_le index req vault)
  rw [timelinePages, hpager.follow_eq .start hgood (by omega), shownBy_true, filter_filter]
  simp only [Bool.and_self]

theorem timelinePages_of_goodPages
    (hgood : GoodPages req.pageLimit true (policy.showsRow trust vault) (fun _ => true)
      (index.rows req vault)) : policy.timelinePages trust index req fuel =
      some ((idealPages req.pageLimit (fun row => row.cursor.encode)
        ((index.rows req vault).filter (policy.showsRow trust vault))).map answerOf) := by
  have hlen := length_rows_le index req vault
  rw [timelinePages, (pager_vaultTimeline hvault hfuel).follow_eq .start hgood (by omega),
    shownBy_true]

end Accepted

theorem filledFromFullPages_iff (hvault : policy.timelineVault trust req = .ok vault) :
    policy.FilledFromFullPages trust index req ↔
      GoodPages req.pageLimit true (policy.showsRow trust vault) (fun _ => true)
        (index.rows req vault) := by
  unfold FilledFromFullPages GoodPages
  rw [shownBy_true]
  constructor
  · intro h start hstart
    exact (goodStart_strict_iff (pageLimit_pos req)).2 (h vault hvault start hstart)
  intro h vault' hvault' start hstart
  cases hvault.symm.trans hvault'
  exact (goodStart_strict_iff (pageLimit_pos req)).1 (h start hstart)

/-- What one sees of an answer tells how many items it has. -/
def seenShape : Except ApiError (List TimelineItem × Bool) → Nat × Bool
  | .ok (items, more) => (items.length, more)
  | .error _ => (0, false)

theorem seenShape_answerOf (page : Page TimelineRow String) :
    (seenShape ∘ seen) (answerOf page) = page.shape := by
  show ((page.items.map TimelineRow.item).length, page.next.isSome) = page.shape
  rw [length_map]
  rfl

theorem flatMap_items_answerOf (pages : List (Page TimelineRow String)) :
    ((pages.map answerOf).flatMap fun answer => (answer.map (·.items)).toOption.getD []) =
      (pages.flatMap Page.items).map TimelineRow.item := by
  rw [flatMap_map, map_flatMap]
  rfl

end ReadPolicy

/-- Hidden notes leave no trace in the timeline just if no page is filled up from the last raw page, the
one that the index does not fill: such a page is answered without a cursor, although it is whole and
notes may follow. -/
theorem hiddenLeaveNoTrace_iff_filledFromFullPages (policy : ReadPolicy) (trust : TrustContext)
    (index : TemporalIndex) (req : VaultTimelineRequest) :
    policy.HiddenLeaveNoTrace trust index req ↔ policy.FilledFromFullPages trust index req := by
  cases hvault : policy.timelineVault trust req with
  | error e =>
    constructor
    · intro _ vault hvault'
      cases hvault.symm.trans hvault'
    intro _ fuel hfuel
    refine ⟨_, _, timelinePages_of_error hvault (by omega),
      timelinePages_of_error hvault (by omega), rfl, ?_⟩
    intro vault hvault'
    cases hvault.symm.trans hvault'
  | ok vault =>
    rw [filledFromFullPages_iff hvault]
    constructor
    · intro h
      obtain ⟨pages, reduced, hpages, hred, hseen, -⟩ := h _ (Nat.lt_succ_self _)
      rw [timelinePages_withoutHidden hvault (Nat.lt_succ_self _)] at hred
      cases hred
      have hpager := pager_vaultTimeline hvault (Nat.lt_succ_self index.entries.rows.length)
      apply hpager.goodPages_of_follow seenShape_answerOf .start hpages
      have hshape := congrArg (List.map ReadPolicy.seenShape) hseen
      rw [map_map, map_map, map_map] at hshape
      rw [shownBy_true]
      refine hshape.trans (map_congr_left ?_)
      intro page _
      exact seenShape_answerOf page
    · intro hgood fuel hfuel
      refine ⟨_, _, timelinePages_of_goodPages hvault hfuel hgood,
        timelinePages_withoutHidden hvault hfuel, rfl, ?_⟩
      intro vault' hvault'
      cases hvault.symm.trans hvault'
      rw [flatMap_items_answerOf, flatMap_idealPages (pageLimit_pos req)]

/-! ## 7. A note that is lost -/

def entryAt (i : Fin 10) : TemporalEntry where
  vaultId := "main"
  noteId := "0000000000000000000000000" ++ i.val.repr
  anchorMs := i.val
  anchorSrc := "created"
  docKind := "Static"
  validUntilMs := none
  isUlid := by revert i; decide
  anchorRange := by omega

def fiveNotes : TemporalIndex where
  entries := ⟨[entryAt 5, entryAt 4, entryAt 3, entryAt 2, entryAt 1], by decide⟩
  notes := fun _ id => some
    { title := none
      «section» := "reference"
      status := .of .live
      tagsRaw := if id = (entryAt 5).noteId then some "personal-classified" else none }

def threeAtATime : VaultTimelineRequest where
  tenantId := none
  vaultId := none
  docKind := none
  fromMs := none
  toMs := none
  limit := some 3
  cursor := none
  asOfMs := none
  includeExpired := false

/-- The page of three is filled up from the raw page of two, so the client is not told to go on and does
not see the oldest note. -/
theorem not_hiddenLeaveNoTrace_fiveNotes :
    ¬ guardedPolicy.HiddenLeaveNoTrace (bearerOf "main") fiveNotes threeAtATime := by
  intro h
  obtain ⟨pages, reduced, hpages, hred, hseen, -⟩ := h 6 (by decide)
  have hone : (guardedPolicy.timelinePages (bearerOf "main") fiveNotes threeAtATime 6).map
      List.length = some 1 := by decide
  have htwo : (guardedPolicy.timelinePages (bearerOf "main")
      (guardedPolicy.withoutHidden (bearerOf "main") fiveNotes) threeAtATime 6).map
      List.length = some 2 := by decide
  rw [hpages] at hone
  rw [hred] at htwo
  have hlen := congrArg List.length hseen
  rw [length_map, length_map, Option.some.inj hone, Option.some.inj htwo] at hlen
  cases hlen

end Gradatum.Access
