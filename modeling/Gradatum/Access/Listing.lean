import Gradatum.Access.ReadGuard
import Gradatum.Reasoning.Paging
import Gradatum.Reasoning.Table

/-!
# Listings

`vault_list` lists the notes of a vault by their ids.  The notes that the caller may not see are dropped from
the raw pages.  The query for a tag cuts its page by a `LIKE` and compares the tag itself afterwards.
-/

open Reasoning

namespace Gradatum.Access

open Notes List Option Bool

/-! ## 1. Tags in a query -/

/-- A reserved name may be asked for as it is spelled. -/
def parseTagQuery (text : String) : Bool := isReserved text || isTag text

def tagEchoMaxChars : Nat := 64

def validatedTag (tag : Option String) : Except ApiError Unit :=
  let echoed := String.ofList ((tag.getD "").toList.take tagEchoMaxChars)
  require (tag.all parseTagQuery)
    (.invalidInput s!"invalid tag: {echoed}; expected ^[a-z0-9][a-z0-9-]\x7b0,63\x7d$")

/-- `(' ' || COALESCE(tags, '') || ' ') LIKE '% ' || tag || ' %'`, for a tag without wildcards: `LIKE`
folds the case of ASCII letters. -/
def likeToken (tag : String) (tagsRaw : Option String) : Bool :=
  let column := (' ' :: (tagsRaw.getD "").toList ++ [' ']).map Char.toLower
  column.tails.any ((' ' :: tag.toList ++ [' ']).map Char.toLower).isPrefixOf

/-! ## 2. The index -/

/-- What a listing reads of a row of `notes`. -/
structure NoteRecord where
  id : String
  vaultId : VaultId
  «section» : String
  status : RowStatus
  bodyText : String
  tagsRaw : Option String
  created : Int
  updated : Option Int
  roleKind : Option String
  roleStatus : Option String
  named : id ≠ ""

abbrev NotesIndex := Table fun r : NoteRecord => (r.vaultId, r.id)

/-- `id LIKE '__sentinel__%'`, where `_` is any character. -/
def isSentinel (id : String) : Bool :=
  12 ≤ id.length && (((id.toList.drop 2).take 8).map Char.toLower) = "sentinel".toList

/-- The conditions that the three queries share. -/
def NoteRecord.listed (r : NoteRecord) (vault : VaultId) (sec : Option String) : Bool :=
  r.vaultId = vault && sec.all (r.section = ·) && !isSentinel r.id && r.status ≠ .downgraded

def NoteRecord.hasRoles (r : NoteRecord) (kind status : Option String) : Bool :=
  kind.all (r.roleKind = some ·) && status.all (r.roleStatus = some ·)

def idPrecedes (a b : String) : Bool := a < b

namespace NotesIndex

variable (index : NotesIndex) (vault : VaultId) (sec : Option String)

/-- The records of a page.  An empty cursor is the beginning of the list. -/
def page (cond genuine : NoteRecord → Bool) (limit : Nat) (cursor : Option String) : List NoteRecord :=
  keysetQuery idPrecedes NoteRecord.id limit (fun r => r.listed vault sec && cond r) genuine index.rows
    (cursor.filter (· ≠ ""))

def total (cond : NoteRecord → Bool) : Nat :=
  (index.rows.filter fun r => r.listed vault sec && cond r).length

def listNotes (limit : Nat) (cursor : Option String) : List NoteRecord × Nat :=
  (index.page vault sec (fun _ => true) (fun _ => true) limit cursor,
    index.total vault sec fun _ => true)

def listNotesFiltered (kind status : Option String) (limit : Nat) (cursor : Option String) :
    List NoteRecord × Nat :=
  (index.page vault sec (·.hasRoles kind status) (fun _ => true) limit cursor,
    index.total vault sec (·.hasRoles kind status))

/-- The tag is compared exactly in the records of the page only; the total is that of the page. -/
def listNotesByTag (tag : String) (limit : Nat) (cursor : Option String) : List NoteRecord × Nat :=
  let records := index.page vault sec (likeToken tag ·.tagsRaw) (carriesTag tag ·.tagsRaw) limit cursor
  (records, records.length)

end NotesIndex

/-! ## 3. Requests -/

structure VaultListRequest where
  tenantId : Option VaultId
  «section» : Option String
  limit : Option Nat
  cursor : Option String
  roleKind : Option String
  roleStatus : Option String
  tag : Option String

structure VaultEntry where
  path : String
  sizeBytes : Nat
  modifiedAt : String
  deriving DecidableEq

structure VaultListResponse where
  entries : List VaultEntry
  nextCursor : Option String
  total : Nat
  deriving DecidableEq

def VaultListRequest.pageLimit (req : VaultListRequest) : Nat :=
  max 1 (min 200 (req.limit.getD 20))

def VaultListRequest.store (req : VaultListRequest) (index : NotesIndex) (vault : VaultId)
    (cursor : Option String) : List NoteRecord × Nat :=
  match req.tag with
  | some tag => index.listNotesByTag vault req.section tag req.pageLimit cursor
  | none =>
    if req.roleKind.isSome || req.roleStatus.isSome then
      index.listNotesFiltered vault req.section req.roleKind req.roleStatus req.pageLimit cursor
    else index.listNotes vault req.section req.pageLimit cursor

/-- `formatMs` writes a time in ms as ISO 8601, or as the empty text if it is out of range. -/
def NoteRecord.entry (formatMs : Int → String) (r : NoteRecord) : VaultEntry :=
  ⟨s!"{r.section}/{r.id}", r.bodyText.utf8ByteSize, formatMs (r.updated.getD r.created)⟩

namespace Policy

variable (policy : Policy) (trust : TrustContext)

def listVault (req : VaultListRequest) : Except ApiError VaultId := do
  require trust.isAuthenticated .unauthorized
  validatedSection req.section
  let tenant ← orForbidden "tenant cross mismatch" (effectiveTenant trust req.tenantId)
  require (policy.acl trust .read (locusForSection tenant req.section)) (.forbidden "acl deny")
  validatedTag req.tag
  require (!(req.tag.isSome && (req.roleKind.isSome || req.roleStatus.isSome)))
    (.invalidInput "tag and role_kind/role_status cannot be combined in one request")
  return tenant

def showsRecord (vault : VaultId) (r : NoteRecord) : Bool :=
  !identitySectionHidden (isIdentityPrivileged trust) r.section &&
    !policy.hidesTags trust vault r.tagsRaw

/-- `none` is a loop that has not ended. -/
def vaultList (formatMs : Int → String) (index : NotesIndex) (req : VaultListRequest) (fuel : Nat) :
    Option (Except ApiError VaultListResponse) :=
  match policy.listVault trust req with
  | .error e => some (.error e)
  | .ok vault =>
    let first := req.store index vault req.cursor
    let hiddenFirst := first.1.countP fun r => policy.hidesTags trust vault r.tagsRaw
    (fill req.pageLimit false (policy.showsRecord trust vault) NoteRecord.id
      (fun cursor => (req.store index vault cursor).1) fuel req.cursor []).map fun page =>
        .ok ⟨page.items.map (NoteRecord.entry formatMs), page.next, first.2 - hiddenFirst⟩

end Policy

/-! ## 4. The rows of a request -/

theorem strictOrder_idPrecedes : StrictOrder idPrecedes where
  asymm a b h := by
    rw [idPrecedes, decide_eq_true_eq] at h
    rw [idPrecedes, decide_eq_false_iff_not]
    exact String.lt_asymm h
  trans a b c hab hbc := by
    rw [idPrecedes, decide_eq_true_eq] at hab hbc ⊢
    exact String.lt_trans hab hbc
  eq_of_neither a b hab hba := by
    rw [idPrecedes, decide_eq_false_iff_not] at hab hba
    exact String.le_antisymm (String.not_lt.1 hba) (String.not_lt.1 hab)

namespace VaultListRequest

variable (req : VaultListRequest)

/-- What the query asks for before it cuts the page. -/
def cond (r : NoteRecord) : Bool :=
  r.hasRoles req.roleKind req.roleStatus && req.tag.all (likeToken · r.tagsRaw)

def genuine (r : NoteRecord) : Bool := req.tag.all (carriesTag · r.tagsRaw)

theorem pageLimit_pos : 0 < req.pageLimit := by
  unfold pageLimit
  omega

theorem store_eq {policy : Policy} (index : NotesIndex)
    (hvault : policy.listVault trust req = .ok vault) (cursor : Option String) :
    (req.store index vault cursor).1 =
      index.page vault req.section req.cond req.genuine req.pageLimit cursor := by
  simp only [Policy.listVault, bind_eq_ok_iff, require_eq_ok_iff] at hvault
  obtain ⟨-, -, -, -, -, -, -, -, -, -, -, hroles, -⟩ := hvault
  cases htag : req.tag with
  | some tag =>
    have hnone : req.roleKind = none ∧ req.roleStatus = none := by
      cases hkind : req.roleKind <;> cases hstat : req.roleStatus <;>
        simp [htag, hkind, hstat] at hroles ⊢
    have hcond : req.cond = fun r => likeToken tag r.tagsRaw := by
      funext r
      rw [cond, hnone.1, hnone.2, htag]
      rfl
    have hgen : req.genuine = fun r => carriesTag tag r.tagsRaw := by
      funext r
      rw [genuine, htag]
      rfl
    rw [store, htag, hcond, hgen]
    rfl
  | none =>
    have hgen : req.genuine = fun _ => true := by
      funext r
      rw [genuine, htag]
      rfl
    have hcond : req.cond = fun r => r.hasRoles req.roleKind req.roleStatus := by
      funext r
      rw [cond, htag]
      exact and_true _
    rw [store, htag, hcond, hgen]
    dsimp only
    split
    · rfl
    rename_i hroles
    rw [not_eq_true, or_eq_false_iff, isSome_eq_false_iff,
      isSome_eq_false_iff, isNone_iff_eq_none, isNone_iff_eq_none] at hroles
    rw [hroles.1, hroles.2]
    rfl

end VaultListRequest

namespace NotesIndex

variable (index : NotesIndex) (req : VaultListRequest) (vault : VaultId)

def selected : List NoteRecord :=
  sortByKey idPrecedes NoteRecord.id
    (index.rows.filter fun r => r.listed vault req.section && req.cond r)

theorem listed_vaultId {r : NoteRecord} {vault : VaultId}
    (h : r.listed vault sec = true) : r.vaultId = vault := by
  simp only [NoteRecord.listed, and_eq_true, decide_eq_true_eq] at h
  exact h.1.1.1

theorem nodup_id (hp : ∀ r, p r = true → r.vaultId = vault) :
    ((index.rows.filter p).map NoteRecord.id).Nodup := by
  have hkeys := index.nodup
  rw [List.Nodup, pairwise_map] at hkeys ⊢
  refine (hkeys.sublist filter_sublist).imp_of_mem ?_
  intro a b ha hb hne hid
  have hvault := (hp a (mem_filter.1 ha).2).trans (hp b (mem_filter.1 hb).2).symm
  exact hne (Prod.ext hvault hid)

theorem nodup_id_selected :
    ((index.rows.filter fun r => r.listed vault req.section && req.cond r).map NoteRecord.id).Nodup :=
  index.nodup_id vault fun r hr => by
    rw [and_eq_true] at hr
    exact listed_vaultId hr.1

theorem length_selected_le : (index.selected req vault).length ≤ index.rows.length := by
  rw [selected, sortByKey, length_insertionSort]
  exact length_filter_le _ _

end NotesIndex

/-! ## 5. The pages a client sees -/

def nextListing : Except ApiError VaultListResponse → Option String
  | .ok response => response.nextCursor
  | .error _ => none

def listing (answer : Except ApiError VaultListResponse) :
    Except ApiError (List VaultEntry × Option String) :=
  answer.map fun response => (response.entries, response.nextCursor)

def entriesOf (answer : Except ApiError VaultListResponse) : List VaultEntry :=
  (answer.map (·.entries)).toOption.getD []

namespace Policy

variable (policy : Policy) (trust : TrustContext) (formatMs : Int → String) (index : NotesIndex)
  (req : VaultListRequest)

def listPages (fuel : Nat) : Option (List (Except ApiError VaultListResponse)) :=
  follow (fun cursor => policy.vaultList trust formatMs index { req with cursor := cursor } fuel)
    nextListing fuel none

/-- The index without the notes that the caller may not see. -/
def indexShown : NotesIndex := index.deleteWhere fun r => !policy.showsRecord trust r.vaultId r

/-- The notes that match the request and that the caller may see, by their ids. -/
def visibleMatching (vault : VaultId) : List NoteRecord :=
  sortByKey idPrecedes NoteRecord.id (index.rows.filter fun r =>
    r.listed vault req.section && r.hasRoles req.roleKind req.roleStatus && req.genuine r &&
      policy.showsRecord trust vault r)

/-- The pages are those of an index without the hidden notes; those of an accepted request show every
note that matches it once and in order, and none has the id of a hidden note as its cursor. -/
def HiddenNotListed : Prop :=
  ∀ fuel, index.rows.length < fuel →
    ∃ pages reduced, policy.listPages trust formatMs index req fuel = some pages ∧
      policy.listPages trust formatMs (policy.indexShown trust index) req fuel = some reduced ∧
      pages.map listing = reduced.map listing ∧
      ∀ vault, policy.listVault trust req = .ok vault →
        pages.flatMap entriesOf =
            (policy.visibleMatching trust index req vault).map (NoteRecord.entry formatMs) ∧
          ∀ answer ∈ pages, ∀ r ∈ index.rows, r.vaultId = vault →
            policy.showsRecord trust vault r = false → nextListing answer ≠ some r.id

/-- For a request for a tag: the `LIKE` finds every visible note that carries the tag, and wherever a
page starts, the raw pages up to the first one that the query does not fill hold a whole page or all
the notes there are; so too in the index without the hidden notes. -/
def TagPagesGood : Prop :=
  ∀ vault, policy.listVault trust req = .ok vault → ∀ tag, req.tag = some tag →
    (∀ r ∈ policy.visibleMatching trust index req vault, likeToken tag r.tagsRaw = true) ∧
      GoodPages req.pageLimit false (policy.showsRecord trust vault) (carriesTag tag ·.tagsRaw)
        (index.selected req vault) ∧
      GoodPages req.pageLimit false (policy.showsRecord trust vault) (carriesTag tag ·.tagsRaw)
        ((policy.indexShown trust index).selected req vault)

/-- What a client sees of an answer but for the total. -/
def listingSeen (page : Page NoteRecord String) :
    Except ApiError (List VaultEntry × Option String) :=
  .ok (page.items.map (NoteRecord.entry formatMs), page.next)

def nextSeen : Except ApiError (List VaultEntry × Option String) → Option String
  | .ok seen => seen.2
  | .error _ => none

theorem nextSeen_listing (answer : Except ApiError VaultListResponse) :
    nextSeen (listing answer) = nextListing answer := by
  cases answer <;> rfl

def entriesSeen (seen : Except ApiError (List VaultEntry × Option String)) : List VaultEntry :=
  (seen.map Prod.fst).toOption.getD []

theorem entriesSeen_listing (answer : Except ApiError VaultListResponse) :
    entriesSeen (listing answer) = entriesOf answer := by
  cases answer <;> rfl

theorem listPages_listing (fuel : Nat) :
    follow (fun cursor => (policy.vaultList trust formatMs index { req with cursor := cursor } fuel).map
        listing) nextSeen fuel none =
      (policy.listPages trust formatMs index req fuel).map (List.map listing) :=
  follow_map nextSeen_listing fuel none

theorem selected_indexShown (vault : VaultId) : (policy.indexShown trust index).selected req vault =
      (index.selected req vault).filter (policy.showsRecord trust vault) := by
  have hsame : ((policy.indexShown trust index).rows.filter
        fun r => r.listed vault req.section && req.cond r) =
      (index.rows.filter fun r => r.listed vault req.section && req.cond r).filter
        (policy.showsRecord trust vault) := by
    unfold indexShown Table.deleteWhere
    simp only [Bool.not_not, List.filter_filter]
    apply filter_congr
    intro r _
    by_cases hlist : r.listed vault req.section = true
    · rw [NotesIndex.listed_vaultId hlist, Bool.and_comm]
    · simp [hlist]
  rw [NotesIndex.selected, hsame,
    strictOrder_idPrecedes.sortByKey_filter (index.nodup_id_selected req vault)]
  rfl

theorem length_indexShown_le : (policy.indexShown trust index).rows.length ≤ index.rows.length :=
  length_filter_le _ _

def found (vault : VaultId) : List NoteRecord :=
  (index.selected req vault).filter (shownBy (policy.showsRecord trust vault) req.genuine)

theorem found_eq (vault : VaultId) : policy.found trust index req vault =
      (policy.visibleMatching trust index req vault).filter
        fun r => req.tag.all (likeToken · r.tagsRaw) := by
  have hnodup : ((index.rows.filter fun r =>
      r.listed vault req.section && r.hasRoles req.roleKind req.roleStatus && req.genuine r &&
        policy.showsRecord trust vault r).map NoteRecord.id).Nodup := by
    apply index.nodup_id vault
    intro r hr
    simp only [and_eq_true] at hr
    exact NotesIndex.listed_vaultId hr.1.1.1
  rw [found, NotesIndex.selected, visibleMatching,
    ← strictOrder_idPrecedes.sortByKey_filter (index.nodup_id_selected req vault),
    ← strictOrder_idPrecedes.sortByKey_filter hnodup, List.filter_filter, List.filter_filter]
  congr 2
  funext r
  rw [shownBy, VaultListRequest.cond]
  ac_rfl

structure ListsWell (vault : VaultId) : Prop where
  finds : ∀ r ∈ policy.visibleMatching trust index req vault,
    req.tag.all (likeToken · r.tagsRaw) = true
  good : GoodPages req.pageLimit false (policy.showsRecord trust vault) req.genuine
    (index.selected req vault)
  goodShown : GoodPages req.pageLimit false (policy.showsRecord trust vault) req.genuine
    ((policy.indexShown trust index).selected req vault)

variable {policy trust formatMs index req}

theorem pager_vaultList (hvault : policy.listVault trust req = .ok vault)
    (formatMs : Int → String) (hfuel : index.rows.length < fuel) :
    Pager req.pageLimit false (policy.showsRecord trust vault) req.genuine NoteRecord.id
      (index.selected req vault)
      (fun cursor => (policy.vaultList trust formatMs index { req with cursor := cursor } fuel).map
        listing) nextSeen (listingSeen formatMs) where
  pos := req.pageLimit_pos
  next_answer _ := rfl
  asks := by
    intro cursor start full short hat hraw
    -- an id is not the empty text, so the cursor is taken as it is
    have hserv : Serves req.pageLimit req.genuine NoteRecord.id (index.selected req vault)
        (fun cursor => (req.store index vault cursor).1) := by
      intro cursor rest hat
      have hcurs : cursor.filter (· ≠ "") = cursor := by
        cases hat with
        | start => rfl
        | after before r _ split => simp [r.named]
      show (req.store index vault cursor).1 = _
      rw [req.store_eq index hvault, NotesIndex.page, hcurs]
      exact strictOrder_idPrecedes.serves_keysetQuery (index.nodup_id_selected req vault) cursor rest hat
    have hpage : fill req.pageLimit false (policy.showsRecord trust vault) NoteRecord.id
        (fun cursor => (req.store index vault cursor).1) fuel cursor [] = some _ :=
      hraw.fill_eq hserv req.pageLimit_pos hat ((index.length_selected_le req vault).trans_lt hfuel)
    have htgt : policy.listVault trust { req with cursor := cursor } = .ok vault := hvault
    unfold vaultList
    rw [htgt]
    dsimp only
    rw [Option.map_map]
    exact congrArg (Option.map _) hpage

theorem listPages_of_error (he : policy.listVault trust req = .error e)
    (hfuel : 0 < fuel) : policy.listPages trust formatMs index req fuel = some [.error e] := by
  obtain ⟨fuel, rfl⟩ : ∃ n, fuel = n + 1 := ⟨fuel - 1, by omega⟩
  have he' : policy.listVault trust { req with cursor := none } = .error e := he
  rw [listPages, follow, vaultList, he']
  rfl

theorem found_indexShown (vault : VaultId) :
    policy.found trust (policy.indexShown trust index) req vault =
      policy.found trust index req vault := by
  rw [found, selected_indexShown, List.filter_filter, found]
  apply filter_congr
  intro r _
  rw [shownBy, Bool.and_assoc, Bool.and_self]

theorem tagPagesGood_iff (hvault : policy.listVault trust req = .ok vault) :
    policy.TagPagesGood trust index req ↔ policy.ListsWell trust index req vault := by
  cases htag : req.tag with
  | none =>
    have hgen : req.genuine = fun _ => true := by
      funext r
      rw [VaultListRequest.genuine, htag]
      rfl
    constructor
    · intro _
      constructor
      · intro r _
        rw [htag]
        rfl
      · rw [hgen]
        exact goodPages_lenient req.pageLimit_pos _
      · rw [hgen]
        exact goodPages_lenient req.pageLimit_pos _
    · intro _ vault' _ tag htag'
      cases htag.symm.trans htag'
  | some tag =>
    have hgen : req.genuine = fun r => carriesTag tag r.tagsRaw := by
      funext r
      rw [VaultListRequest.genuine, htag]
      rfl
    constructor
    · intro h
      obtain ⟨hfinds, hgood, hgoodShown⟩ := h vault hvault tag htag
      rw [← hgen] at hgood hgoodShown
      refine ⟨?_, hgood, hgoodShown⟩
      rw [htag]
      exact hfinds
    · intro h vault' hvault' tag' htag'
      cases hvault.symm.trans hvault'
      cases htag.symm.trans htag'
      have hfinds := h.finds
      rw [htag] at hfinds
      rw [← hgen]
      exact ⟨hfinds, h.good, h.goodShown⟩

section Accepted

variable {vault : VaultId} (hvault : policy.listVault trust req = .ok vault) {fuel : Nat}
  (hfuel : index.rows.length < fuel)

include hvault hfuel

theorem listing_listPages (formatMs : Int → String)
    (hgood : GoodPages req.pageLimit false (policy.showsRecord trust vault) req.genuine
      (index.selected req vault)) :
    (policy.listPages trust formatMs index req fuel).map (List.map listing) =
      some ((idealPages req.pageLimit NoteRecord.id (policy.found trust index req vault)).map
        (listingSeen formatMs)) := by
  have hlen := index.length_selected_le req vault
  rw [← listPages_listing]
  exact (pager_vaultList hvault formatMs hfuel).follow_eq .start hgood (by omega)

theorem exists_pages (formatMs : Int → String)
    (hgood : GoodPages req.pageLimit false (policy.showsRecord trust vault) req.genuine
      (index.selected req vault)) :
    ∃ pages, policy.listPages trust formatMs index req fuel = some pages ∧
      pages.map listing = (idealPages req.pageLimit NoteRecord.id
        (policy.found trust index req vault)).map (listingSeen formatMs) := by
  exact map_eq_some_iff.1 (listing_listPages hvault hfuel formatMs hgood)

end Accepted

theorem flatMap_entriesOf (pages : List (Except ApiError VaultListResponse)) :
    pages.flatMap entriesOf = (pages.map listing).flatMap entriesSeen := by
  rw [flatMap_map]
  exact flatMap_congr fun answer _ => (entriesSeen_listing answer).symm

theorem flatMap_entriesSeen (formatMs : Int → String) (pages : List (Page NoteRecord String)) :
    (pages.map (listingSeen formatMs)).flatMap entriesSeen =
      (pages.flatMap Page.items).map (NoteRecord.entry formatMs) := by
  rw [flatMap_map, map_flatMap]
  rfl

theorem next_ne_hidden
    (hpage : page ∈ idealPages req.pageLimit NoteRecord.id (policy.found trust index req vault))
    (hr : r ∈ index.rows) (hvault : r.vaultId = vault)
    (hhid : policy.showsRecord trust vault r = false) : page.next ≠ some r.id := by
  intro hnext
  obtain ⟨r', hr', hid⟩ := mem_of_idealPages_next req.pageLimit_pos hpage hnext
  rw [found, mem_filter, NotesIndex.selected, mem_sortByKey, mem_filter, shownBy,
    and_eq_true, and_eq_true] at hr'
  obtain ⟨⟨hrow, hlist, -⟩, -, hshown⟩ := hr'
  have hkey : (r'.vaultId, r'.id) = (r.vaultId, r.id) := by
    rw [NotesIndex.listed_vaultId hlist, hvault, hid]
  rw [inj_on_of_nodup_map index.nodup hrow hr hkey, hhid] at hshown
  cases hshown

theorem hiddenNotListed_of_listsWell (hvault : policy.listVault trust req = .ok vault)
    (hwell : policy.ListsWell trust index req vault) :
    policy.HiddenNotListed trust formatMs index req := by
  intro fuel hfuel
  obtain ⟨pages, hpages, hseen⟩ := exists_pages hvault hfuel formatMs hwell.good
  obtain ⟨reduced, hred, hseenReduced⟩ := exists_pages hvault
    (Nat.lt_of_le_of_lt (length_indexShown_le policy trust index) hfuel) formatMs hwell.goodShown
  rw [found_indexShown] at hseenReduced
  refine ⟨pages, reduced, hpages, hred, hseen.trans hseenReduced.symm, ?_⟩
  intro vault' hvault'
  cases hvault.symm.trans hvault'
  constructor
  · rw [flatMap_entriesOf, hseen, flatMap_entriesSeen, flatMap_idealPages req.pageLimit_pos, found_eq,
      filter_eq_self.2 hwell.finds]
  intro answer hans r hr hrvault hhid
  obtain ⟨page, hpage, heq⟩ := List.mem_map.1 (hseen ▸ List.mem_map_of_mem hans :
    listing answer ∈ (idealPages req.pageLimit NoteRecord.id
      (policy.found trust index req vault)).map (listingSeen formatMs))
  rw [← nextSeen_listing, ← heq]
  exact next_ne_hidden hpage hr hrvault hhid

/-- How many entries a client sees in an answer, and whether it sees a cursor. -/
def seenCount (seen : Except ApiError (List VaultEntry × Option String)) : Nat × Bool :=
  ((entriesSeen seen).length, (nextSeen seen).isSome)

theorem seenCount_listingSeen (formatMs : Int → String) (page : Page NoteRecord String) :
    seenCount (listingSeen formatMs page) = page.shape := by
  show ((page.items.map (NoteRecord.entry formatMs)).length, page.next.isSome) = page.shape
  rw [length_map]
  rfl

theorem listsWell_of_hiddenNotListed (hvault : policy.listVault trust req = .ok vault)
    (h : policy.HiddenNotListed trust formatMs index req) : policy.ListsWell trust index req vault := by
  obtain ⟨pages, reduced, hpages, hred, hseen, hacc⟩ := h _ (Nat.lt_succ_self _)
  obtain ⟨hents, -⟩ := hacc vault hvault
  have hpager := pager_vaultList hvault formatMs (Nat.lt_succ_self index.rows.length)
  have hfol := listPages_listing policy trust formatMs index req index.rows.length.succ
  rw [hpages, map_some] at hfol
  -- the client gets all that matches, but no more than is found
  have hcount : ∀ page, (List.length ∘ entriesSeen) (listingSeen formatMs page) = page.items.length :=
    fun page => congrArg Prod.fst (seenCount_listingSeen formatMs page)
  have hsum : ((pages.map listing).map (List.length ∘ entriesSeen)).sum =
      (policy.visibleMatching trust index req vault).length := by
    rw [Function.comp_def, ← length_flatMap, ← flatMap_entriesOf, hents, length_map]
  have hle := hpager.sum_count_le hcount .start hfol
  have hfound := length_filter_le (fun r : NoteRecord => req.tag.all (likeToken · r.tagsRaw))
    (policy.visibleMatching trust index req vault)
  rw [← found_eq] at hfound
  have hfinds : (policy.found trust index req vault).length =
      (policy.visibleMatching trust index req vault).length := by
    rw [hsum] at hle
    exact Nat.le_antisymm hfound hle
  have hgood := hpager.goodPages_of_complete hcount .start hfol (hsum.trans hfinds.symm)
  have hpager' := pager_vaultList hvault formatMs
    (Nat.lt_succ_of_le (length_indexShown_le policy trust index))
  have hfollow' := listPages_listing policy trust formatMs (policy.indexShown trust index) req
    index.rows.length.succ
  rw [hred, map_some] at hfollow'
  have hideal := listing_listPages hvault (Nat.lt_succ_self index.rows.length) formatMs hgood
  rw [hpages, map_some, hseen] at hideal
  refine ⟨?_, hgood, ?_⟩
  · rw [found_eq] at hfinds
    exact length_filter_eq_length_iff.1 hfinds
  apply hpager'.goodPages_of_follow (seenCount_listingSeen formatMs) .start hfollow'
  rw [Option.some.inj hideal, List.map_map, ← found, found_indexShown]
  exact map_congr_left fun page _ => seenCount_listingSeen formatMs page

end Policy

/-- Hidden notes leave no trace in a listing just if a listing by a tag is good: the `LIKE` that cuts the
raw pages folds the case of letters, and a note that it finds by mistake makes a raw page short,
which is taken for the end of the list. -/
theorem hiddenNotListed_iff_tagPagesGood (policy : Policy) (trust : TrustContext)
    (formatMs : Int → String) (index : NotesIndex) (req : VaultListRequest) :
    policy.HiddenNotListed trust formatMs index req ↔ policy.TagPagesGood trust index req := by
  cases hvault : policy.listVault trust req with
  | error e =>
    constructor
    · intro _ vault hvault'
      cases hvault.symm.trans hvault'
    intro _ fuel hfuel
    refine ⟨_, _, Policy.listPages_of_error hvault (by omega),
      Policy.listPages_of_error hvault (by omega), rfl, ?_⟩
    intro vault hvault'
    cases hvault.symm.trans hvault'
  | ok vault =>
    rw [Policy.tagPagesGood_iff hvault]
    constructor
    · exact Policy.listsWell_of_hiddenNotListed hvault
    · exact Policy.hiddenNotListed_of_listsWell hvault

/-! ## 6. A listing that ends early -/

def taggedNote (id : String) (tags : String) (hid : id ≠ "" := by decide) : NoteRecord where
  id := id
  vaultId := "main"
  «section» := "reference"
  status := .of .live
  bodyText := ""
  tagsRaw := some tags
  created := 0
  updated := none
  roleKind := none
  roleStatus := none
  named := hid

/-- The first note is classified and carries `Draft`, the second carries `draft`. -/
def twoDrafts : NotesIndex where
  rows := [taggedNote "01" "Draft personal-classified", taggedNote "02" "draft"]
  nodup := by decide

def oneDraft : VaultListRequest where
  tenantId := none
  «section» := none
  limit := some 1
  cursor := none
  roleKind := none
  roleStatus := none
  tag := some "draft"

/-- The hidden note fills the first raw page and is dropped from it, so the listing is empty; without it
the second note is listed. -/
theorem not_hiddenNotListed_twoDrafts :
    ¬ guardedPolicy.toPolicy.HiddenNotListed (bearerOf "main") (fun _ => "") twoDrafts oneDraft := by
  intro h
  obtain ⟨pages, reduced, hpages, hred, hseen, -⟩ := h 3 (by decide)
  have hone : (guardedPolicy.toPolicy.listPages (bearerOf "main") (fun _ => "") twoDrafts oneDraft
      3).map List.length = some 1 := by decide
  have htwo : (guardedPolicy.toPolicy.listPages (bearerOf "main") (fun _ => "")
      (guardedPolicy.toPolicy.indexShown (bearerOf "main") twoDrafts) oneDraft 3).map
      List.length = some 2 := by decide
  rw [hpages] at hone
  rw [hred] at htwo
  have hlen := congrArg List.length hseen
  rw [length_map, length_map, Option.some.inj hone, Option.some.inj htwo] at hlen
  cases hlen

end Gradatum.Access
