import Mathlib.Algebra.Order.Ring.Nat
import Mathlib.Data.List.Sort

/-!
# Keyset pages that are filled up

A server asks a store for `limit` rows after a cursor, drops the rows its caller may not see, and asks again
from the last row it looked at until the page is full or the store has no more.  The pages that a client
ought to see are `idealPages`; `Pager.follow_eq` and `Pager.goodPages_of_follow` say when it sees them.
-/

namespace Reasoning

open List Option Nat

section Paging

variable {α κ : Type}

/-! ## 1. The loop -/

structure Page (α κ : Type) where
  items : List α
  next : Option κ
  deriving DecidableEq

/-- Add visible rows to a page until it has `limit`: the page, and the last row looked at. -/
def scan (limit : Nat) (visible : α → Bool) (items : List α) : List α → List α × Option α
  | [] => (items, none)
  | r :: rest =>
    if visible r && items.length + 1 = limit then (items ++ [r], some r)
    else
      let scanned := scan limit visible (if visible r then items ++ [r] else items) rest
      (scanned.1, scanned.2.or (some r))

def fill (limit : Nat) (strict : Bool) (visible : α → Bool) (key : α → κ)
    (query : Option κ → List α) : Nat → Option κ → List α → Option (Page α κ)
  | 0, _, _ => none
  | fuel + 1, cursor, items =>
    let records := query cursor
    let scanned := scan limit visible items records
    if scanned.1.length = limit then
      some ⟨scanned.1, if strict && records.length ≠ limit then none else scanned.2.map key⟩
    else if records.length = limit then
      fill limit strict visible key query fuel (scanned.2.map key) scanned.1
    else some ⟨scanned.1, none⟩

/-- Ask for page after page until an answer names no next one. -/
def follow {σ : Type} (ask : Option κ → Option σ) (next : σ → Option κ) :
    Nat → Option κ → Option (List σ)
  | 0, _ => none
  | fuel + 1, cursor =>
    (ask cursor).bind fun answer =>
      match next answer with
      | none => some [answer]
      | some c => (follow ask next fuel (some c)).map (answer :: ·)

def wholePage (limit : Nat) (key : α → κ) (shown : List α) : Page α κ :=
  ⟨shown.take limit, (shown.take limit).getLast?.map key⟩

/-- The pages of the rows that a client may see. -/
def idealPages (limit : Nat) (key : α → κ) (shown : List α) : List (Page α κ) :=
  if 0 < limit ∧ limit ≤ shown.length then
    wholePage limit key shown :: idealPages limit key (shown.drop limit)
  else [⟨shown, none⟩]
termination_by shown.length
decreasing_by
  simp only [length_drop]
  omega

/-! ## 2. The store -/

inductive At (key : α → κ) (rows : List α) : Option κ → List α → Prop
  | start : At key rows none rows
  | after (before : List α) (r : α) (rest : List α) (split : rows = before ++ r :: rest) :
      At key rows (some (key r)) rest

theorem At.later (h : At key rows cursor (before ++ r :: rest)) : At key rows (some (key r)) rest := by
  cases h with
  | start => exact .after before r rest rfl
  | after earlier r' rest' split =>
    exact .after (earlier ++ r' :: before) r rest (by rw [split, append_assoc]; rfl)

theorem At.length_le (h : At key rows cursor rest) : rest.length ≤ rows.length := by
  cases h with
  | start => exact le_refl _
  | after before r rest split =>
    rw [split, length_append, length_cons]
    omega

def Serves (limit : Nat) (genuine : α → Bool) (key : α → κ) (rows : List α)
    (query : Option κ → List α) : Prop :=
  ∀ cursor rest, At key rows cursor rest → query cursor = (rest.take limit).filter genuine

def afterCursor (precedes : κ → κ → Bool) (key : α → κ) (rows : List α) (cursor : Option κ) :
    List α :=
  rows.filter fun r => cursor.all fun c => precedes c (key r)

/-- `ORDER BY` the key. -/
def sortByKey (precedes : κ → κ → Bool) (key : α → κ) (rows : List α) : List α :=
  rows.insertionSort fun a b => precedes (key b) (key a) = false

structure StrictOrder (precedes : κ → κ → Bool) : Prop where
  asymm : ∀ a b, precedes a b = true → precedes b a = false
  trans : ∀ a b c, precedes a b = true → precedes b c = true → precedes a c = true
  eq_of_neither : ∀ a b, precedes a b = false → precedes b a = false → a = b

section Sorted

variable {rows : List α}

theorem mem_sortByKey : r ∈ sortByKey precedes key rows ↔ r ∈ rows :=
  (perm_insertionSort _ rows).mem_iff

theorem StrictOrder.pairwise_sortByKey (hord : StrictOrder precedes) (hnodup : (rows.map key).Nodup) :
    (sortByKey precedes key rows).Pairwise fun a b => precedes (key a) (key b) = true := by
  let r := fun a b : α => precedes (key b) (key a) = false
  have htotal : Std.Total r := ⟨fun a b => by
    cases hba : precedes (key b) (key a) with
    | false => exact .inl hba
    | true => exact .inr (hord.asymm _ _ hba)⟩
  have htrans : IsTrans α r := ⟨fun a b c hab hbc => by
    -- from `c < a`, one of `c < b` and `b < a`
    show precedes (key c) (key a) = false
    by_contra hca
    rw [Bool.not_eq_false] at hca
    cases hab' : precedes (key a) (key b) with
    | true => exact absurd (hord.trans _ _ _ hca hab') (by rw [hbc]; exact Bool.false_ne_true)
    | false => rw [hord.eq_of_neither _ _ hab' hab, hbc] at hca; cases hca⟩
  have hsort : (sortByKey precedes key rows).Pairwise r := pairwise_insertionSort r rows
  have hnod' : ((sortByKey precedes key rows).map key).Nodup :=
    ((perm_insertionSort r rows).map key).nodup_iff.2 hnodup
  rw [List.Nodup, pairwise_map] at hnod'
  refine (hsort.and hnod').imp ?_
  intro a b ⟨hle, hne⟩
  by_contra hab
  exact hne (hord.eq_of_neither _ _ (by simpa using hab) hle)

theorem StrictOrder.sortByKey_filter (hord : StrictOrder precedes) (hnodup : (rows.map key).Nodup)
    (p : α → Bool) :
    sortByKey precedes key (rows.filter p) = (sortByKey precedes key rows).filter p := by
  have hsub : ((rows.filter p).map key).Nodup := hnodup.sublist (filter_sublist.map key)
  refine List.Perm.eq_of_pairwise ?_ (hord.pairwise_sortByKey hsub)
    ((hord.pairwise_sortByKey hnodup).filter p) ?_
  · intro a b _ _ hab hba
    rw [hord.asymm _ _ hab] at hba
    cases hba
  · exact (perm_insertionSort _ _).trans ((perm_insertionSort _ _).symm.filter p)

end Sorted

theorem afterCursor_of_at (hord : StrictOrder precedes)
    (hsort : rows.Pairwise fun a b => precedes (key a) (key b) = true) (h : At key rows cursor rest) :
    afterCursor precedes key rows cursor = rest := by
  cases h with
  | start => simp [afterCursor]
  | after before r rest split =>
    subst split
    rw [pairwise_append] at hsort
    obtain ⟨-, hrest, hbef⟩ := hsort
    have hself : precedes (key r) (key r) = false := by
      cases hrr : precedes (key r) (key r) with
      | false => rfl
      | true => rw [← hrr]; exact hord.asymm _ _ hrr
    have hdrop : before.filter (fun a => precedes (key r) (key a)) = [] := by
      rw [filter_eq_nil_iff]
      intro a ha
      simp [hord.asymm _ _ (hbef a ha r (by simp))]
    have hkeep : rest.filter (fun a => precedes (key r) (key a)) = rest := by
      rw [filter_eq_self]
      exact (pairwise_cons.1 hrest).1
    simp [afterCursor, hdrop, hkeep, hself]

/-- `SELECT … WHERE cond AND key > cursor ORDER BY key LIMIT limit`, of which the `genuine` are kept. -/
def keysetQuery (precedes : κ → κ → Bool) (key : α → κ) (limit : Nat) (cond genuine : α → Bool)
    (rows : List α) (cursor : Option κ) : List α :=
  ((sortByKey precedes key (afterCursor precedes key (rows.filter cond) cursor)).take limit).filter
    genuine

theorem StrictOrder.serves_keysetQuery (hord : StrictOrder precedes) {cond genuine : α → Bool}
    (hnodup : ((rows.filter cond).map key).Nodup) :
    Serves limit genuine key (sortByKey precedes key (rows.filter cond))
      (keysetQuery precedes key limit cond genuine rows) := by
  intro cursor rest hat
  rw [keysetQuery, afterCursor, hord.sortByKey_filter hnodup]
  rw [← afterCursor, afterCursor_of_at hord (hord.pairwise_sortByKey hnodup) hat]

/-! ## 3. One page -/

section Fill

variable {limit : Nat} {strict : Bool} {visible genuine : α → Bool} {key : α → κ}

/-- A scan looks at every row, or it stops at the one that fills the page. -/
theorem scan_cases (visible : α → Bool) (records : List α) (hroom : items.length < limit) :
    scan limit visible items records = (items ++ records.filter visible, records.getLast?) ∧
        (items ++ records.filter visible).length < limit ∨
      ∃ before r later, records = before ++ r :: later ∧ visible r = true ∧
        scan limit visible items records = (items ++ (before ++ [r]).filter visible, some r) ∧
        (items ++ (before ++ [r]).filter visible).length = limit := by
  induction records generalizing items with
  | nil => exact .inl ⟨by rw [filter_nil, append_nil]; rfl, by simpa using hroom⟩
  | cons r records ih =>
    have hnext : ∀ more : List α, items ++ (r :: more).filter visible =
        (if visible r then items ++ [r] else items) ++ more.filter visible := by
      intro more
      rw [filter_cons]
      split
      · rw [append_assoc, singleton_append]
      · rfl
    rw [scan, hnext]
    by_cases hfull : (visible r && items.length + 1 = limit) = true
    · rw [if_pos hfull]
      rw [Bool.and_eq_true, decide_eq_true_eq] at hfull
      refine .inr ⟨[], r, records, rfl, hfull.1, ?_⟩
      rw [nil_append, hnext, if_pos hfull.1, filter_nil, append_nil, length_append, length_singleton]
      exact ⟨rfl, hfull.2⟩
    have hmore : (if visible r then items ++ [r] else items).length < limit := by
      rw [Bool.and_eq_true, decide_eq_true_eq] at hfull
      split
      · rename_i hvis
        have hne : items.length + 1 ≠ limit := fun hlimit => hfull ⟨hvis, hlimit⟩
        rw [length_append, length_singleton]
        omega
      · exact hroom
    rw [if_neg hfull]
    rcases ih hmore with ⟨hall, hlt⟩ | ⟨before, r', later, hsplit, hvis, hscan, hlen⟩
    · refine .inl ⟨?_, hlt⟩
      rw [hall, getLast?_cons]
      cases records.getLast? <;> rfl
    · refine .inr ⟨r :: before, r', later, by rw [hsplit]; rfl, hvis, ?_⟩
      rw [hscan, cons_append, hnext]
      exact ⟨rfl, hlen⟩

/-- The rows in two parts: the answers of `limit` rows, and the rows from the first other answer on. -/
structure RawPages (limit : Nat) (genuine : α → Bool) (rows full short : List α) : Prop where
  split : rows = full ++ short
  whole : limit ∣ full.length
  kept : ∀ r ∈ full, genuine r = true
  stops : ((short.take limit).filter genuine).length ≠ limit

/-- The page that has `items` already and is filled up from the rest. -/
def pageFrom (limit : Nat) (strict : Bool) (visible genuine : α → Bool) (key : α → κ)
    (items full short : List α) : Page α κ :=
  let inFull := items ++ full.filter visible
  let reached := inFull ++ ((short.take limit).filter genuine).filter visible
  if limit ≤ inFull.length then wholePage limit key inFull
  else if limit ≤ reached.length then
    if strict then ⟨reached.take limit, none⟩ else wholePage limit key reached
  else ⟨reached, none⟩

/-- A page whose cursors are written in another way. -/
theorem pageFrom_comp (f : κ → τ) (items full short : List α) :
    pageFrom limit strict visible genuine (fun r => f (key r)) items full short =
      let page := pageFrom limit strict visible genuine key items full short
      ⟨page.items, page.next.map f⟩ := by
  have hwhole : ∀ shown : List α, wholePage limit (fun r => f (key r)) shown =
      ⟨(wholePage limit key shown).items, (wholePage limit key shown).next.map f⟩ := by
    intro shown
    simp only [wholePage, Option.map_map]
    rfl
  unfold pageFrom
  dsimp only
  rw [hwhole, hwhole]
  split
  · rfl
  split
  · split <;> rfl
  · rfl

theorem wholePage_append (h : limit ≤ xs.length) :
    wholePage limit key (xs ++ ys) = wholePage limit key xs := by
  rw [wholePage, take_append_of_le_length h, wholePage]

theorem fill_succ (hroom : items.length < limit) :
    fill limit strict visible key query (fuel + 1) cursor items =
      let reached := items ++ (query cursor).filter visible
      if limit ≤ reached.length then
        if strict && (query cursor).length ≠ limit then some ⟨reached.take limit, none⟩
        else some (wholePage limit key reached)
      else if (query cursor).length = limit then
        fill limit strict visible key query fuel ((query cursor).getLast?.map key) reached
      else some ⟨reached, none⟩ := by
  rw [fill]
  rcases scan_cases visible (query cursor) hroom with
    ⟨hscan, hlt⟩ | ⟨before, r, later, hsplit, hvis, hscan, hlen⟩
  · dsimp only
    rw [hscan, if_neg hlt.ne, if_neg hlt.not_ge]
  · have htake : (items ++ (query cursor).filter visible).take limit =
        items ++ (before ++ [r]).filter visible := by
      rw [hsplit, ← singleton_append, ← append_assoc, filter_append, ← append_assoc, take_left' hlen]
    have hle : limit ≤ (items ++ (query cursor).filter visible).length := by
      have hleng := congrArg List.length htake
      rw [length_take] at hleng
      omega
    dsimp only
    rw [hscan, if_pos hlen, if_pos hle, wholePage, htake, filter_append, filter_cons_of_pos hvis, filter_nil,
      ← append_assoc, getLast?_concat]
    split <;> rfl

/-- A page is filled up from the answers of `limit` rows and the one after them.  By induction on the
number of the former. -/
theorem fill_eq (hserv : Serves limit genuine key rows query) (hpos : 0 < limit) (hfuel : n < fuel)
    (hat : At key rows cursor (full ++ short)) (hn : full.length = n * limit)
    (hgen : ∀ r ∈ full, genuine r = true)
    (hstops : ((short.take limit).filter genuine).length ≠ limit) (hroom : items.length < limit) :
    fill limit strict visible key query fuel cursor items =
      some (pageFrom limit strict visible genuine key items full short) := by
  induction n generalizing fuel cursor items full with
  | zero =>
    obtain ⟨fuel, rfl⟩ : ∃ f, fuel = f + 1 := ⟨fuel - 1, by omega⟩
    have hnil : full = [] := length_eq_zero_iff.1 (by omega)
    subst hnil
    rw [fill_succ hroom, hserv _ _ hat, nil_append, pageFrom, filter_nil,
      append_nil]
    dsimp only
    rw [if_neg hstops, if_neg (show ¬ limit ≤ items.length by omega)]
    simp only [hstops, ne_eq, not_false_eq_true, decide_true, Bool.and_true]
    split
    · split <;> rfl
    · rfl
  | succ n ih =>
    obtain ⟨fuel, rfl⟩ : ∃ f, fuel = f + 1 := ⟨fuel - 1, by omega⟩
    have hlen : limit ≤ full.length := by rw [hn, succ_mul]; omega
    -- the first answer
    obtain ⟨first, later, rfl, hfirst⟩ : ∃ first later, full = first ++ later ∧
        first.length = limit :=
      ⟨full.take limit, full.drop limit, (take_append_drop _ _).symm, by simp [hlen]⟩
    have hquery : query cursor = first := by
      rw [hserv _ _ hat, append_assoc, take_append_of_le_length (by omega),
        take_of_length_le (by omega), filter_eq_self]
      intro r hr
      exact hgen r (mem_append_left _ hr)
    rw [fill_succ hroom, hquery]
    dsimp only
    by_cases hfull : limit ≤ (items ++ first.filter visible).length
    · have hmore : limit ≤ (items ++ (first ++ later).filter visible).length := by
        rw [filter_append, ← append_assoc, length_append]
        omega
      rw [if_pos hfull, if_neg (by simp [hfirst]), pageFrom, if_pos hmore, filter_append,
        ← append_assoc, wholePage_append hfull]
    · obtain ⟨before, r, rfl⟩ : ∃ before r, first = before ++ [r] :=
        eq_nil_or_concat' first |>.resolve_left (by intro h; subst h; simp at hfirst; omega)
      have hsplit : At key rows cursor (before ++ r :: (later ++ short)) := by simpa using hat
      rw [if_neg hfull, if_pos hfirst, getLast?_concat, map_some,
        ih (by omega) hsplit.later (by rw [length_append, succ_mul] at hn; omega)
          (fun r hr => hgen r (mem_append_right _ hr)) (by omega)]
      simp only [pageFrom, filter_append, append_assoc]

theorem RawPages.fill_eq (hraw : RawPages limit genuine start full short)
    (hserv : Serves limit genuine key rows query) (hpos : 0 < limit) (hat : At key rows cursor start)
    (hfuel : rows.length < fuel) : fill limit strict visible key query fuel cursor [] =
      some (pageFrom limit strict visible genuine key [] full short) := by
  obtain ⟨n, hn⟩ := hraw.whole
  have hlen : n < fuel := by
    calc n ≤ full.length := by rw [hn]; exact Nat.le_mul_of_pos_left n hpos
      _ ≤ start.length := by rw [hraw.split, length_append]; exact le_add_right _ _
      _ ≤ rows.length := hat.length_le
      _ < fuel := hfuel
  rw [hraw.split] at hat
  exact Reasoning.fill_eq hserv hpos hlen hat (by rw [hn, mul_comm]) hraw.kept hraw.stops hpos

theorem exists_rawPages (hpos : 0 < limit) (genuine : α → Bool) (rows : List α) :
    ∃ full short, RawPages limit genuine rows full short := by
  induction hn : rows.length using Nat.strong_induction_on generalizing rows with
  | h n ih =>
    by_cases hfirst : ((rows.take limit).filter genuine).length = limit
    · have hle : ((rows.take limit).filter genuine).length ≤ (rows.take limit).length :=
        length_filter_le _ _
      have htake : (rows.take limit).length = limit := by
        rw [length_take] at hle ⊢
        omega
      obtain ⟨full, short, hraw⟩ := ih (rows.drop limit).length
        (by rw [length_drop]; rw [length_take] at htake; omega) (rows.drop limit) rfl
      refine ⟨rows.take limit ++ full, short, ⟨?_, ?_, ?_, hraw.stops⟩⟩
      · rw [append_assoc, ← hraw.split, take_append_drop]
      · rw [length_append, htake]
        exact Nat.dvd_add (Nat.dvd_refl _) hraw.whole
      · intro r hr
        rcases mem_append.1 hr with hr | hr
        · exact length_filter_eq_length_iff.1 (hfirst.trans htake.symm) r hr
        · exact hraw.kept r hr
    · exact ⟨[], rows, ⟨rfl, Nat.dvd_zero _, by simp, hfirst⟩⟩

end Fill

/-! ## 4. All pages -/

section Follow

variable (limit : Nat) (strict : Bool) (visible genuine : α → Bool) {key : α → κ}

def skip (shown : α → Bool) : Nat → List α → List α
  | 0, rows => rows
  | _ + 1, [] => []
  | n + 1, r :: rest => if shown r then skip shown n rest else skip shown (n + 1) rest

theorem skip_split (h : n + 1 ≤ (rows.filter shown).length) :
    ∃ before r, rows = before ++ r :: skip shown (n + 1) rows ∧
      (rows.filter shown).take (n + 1) = before.filter shown ++ [r] ∧
      (rows.filter shown).drop (n + 1) = (skip shown (n + 1) rows).filter shown := by
  induction rows generalizing n with
  | nil => simp at h
  | cons r rest ih =>
    by_cases hshown : shown r = true
    · rw [filter_cons_of_pos hshown] at h ⊢
      rw [skip, if_pos hshown]
      cases n with
      | zero =>
        rw [skip]
        exact ⟨[], r, rfl, rfl, rfl⟩
      | succ n =>
        obtain ⟨before, last, hsplit, htake, hdrop⟩ := ih (by simpa using h)
        refine ⟨r :: before, last, congrArg (r :: ·) hsplit, ?_, hdrop⟩
        rw [take_succ_cons, htake, filter_cons_of_pos hshown]
        rfl
    · rw [filter_cons_of_neg hshown] at h ⊢
      rw [skip, if_neg hshown]
      obtain ⟨before, last, hsplit, htake, hdrop⟩ := ih h
      refine ⟨r :: before, last, congrArg (r :: ·) hsplit, ?_, hdrop⟩
      rw [htake, filter_cons_of_neg hshown]

inductive PageStart (limit : Nat) (shown : α → Bool) : List α → List α → Prop
  | first (rows : List α) : PageStart limit shown rows rows
  | next {rows start : List α} (whole : limit ≤ (rows.filter shown).length)
      (later : PageStart limit shown (skip shown limit rows) start) : PageStart limit shown rows start

/-- The rows that the store keeps and the caller may see. -/
def shownBy (r : α) : Bool := genuine r && visible r

/-- The answers of `limit` rows, or those and the one after them where that is enough for a cursor, hold
a whole page; or the caller may see no row that they leave out. -/
def GoodRaw (full short : List α) : Prop :=
  let shown := shownBy visible genuine
  limit ≤ (full.filter shown).length ∨
    strict = false ∧ limit ≤ ((full ++ short.take limit).filter shown).length ∨
    ((full ++ short.take limit).filter shown).length < limit ∧ (short.drop limit).filter shown = []

def GoodStart (start : List α) : Prop :=
  ∀ full short, RawPages limit genuine start full short → GoodRaw limit strict visible genuine full short

def GoodPages (rows : List α) : Prop :=
  ∀ start, PageStart limit (shownBy visible genuine) rows start →
    GoodStart limit strict visible genuine start

def idealPage (limit : Nat) (key : α → κ) (shown : List α) : Page α κ :=
  if limit ≤ shown.length then wholePage limit key shown else ⟨shown, none⟩

variable {limit strict visible genuine}

def Page.shape (page : Page α κ) : Nat × Bool := (page.items.length, page.next.isSome)

theorem filter_shownBy_of_kept {rows : List α} (h : ∀ r ∈ rows, genuine r = true) :
    rows.filter (shownBy visible genuine) = rows.filter visible := by
  apply filter_congr
  intro r hr
  simp [shownBy, h r hr]

theorem filter_filter_shownBy (rows : List α) :
    (rows.filter genuine).filter visible = rows.filter (shownBy visible genuine) := by
  rw [List.filter_filter]
  apply filter_congr
  intro r _
  rw [shownBy, Bool.and_comm]

theorem pageFrom_nil (hraw : RawPages limit genuine rows full short) :
    pageFrom limit strict visible genuine key [] full short =
      let shown := shownBy visible genuine
      let inFull := full.filter shown
      let reached := (full ++ short.take limit).filter shown
      if limit ≤ inFull.length then wholePage limit key inFull
      else if limit ≤ reached.length then
        if strict then ⟨reached.take limit, none⟩ else wholePage limit key reached
      else ⟨reached, none⟩ := by
  dsimp only
  rw [pageFrom, nil_append, filter_filter_shownBy, filter_append,
    filter_shownBy_of_kept hraw.kept]

/-- The shown rows are those that the first answers reach and those they leave out. -/
theorem filter_of_rawPages (shown : α → Bool) (hraw : RawPages limit genuine rows full short) :
    rows.filter shown = (full ++ short.take limit).filter shown ++ (short.drop limit).filter shown := by
  rw [hraw.split, ← filter_append, append_assoc, take_append_drop]

theorem pageFrom_of_goodRaw (hraw : RawPages limit genuine rows full short)
    (hgood : GoodRaw limit strict visible genuine full short) :
    pageFrom limit strict visible genuine key [] full short =
      idealPage limit key (rows.filter (shownBy visible genuine)) := by
  have hshown := filter_of_rawPages (shownBy visible genuine) hraw
  have hle : (full.filter (shownBy visible genuine)).length ≤
      ((full ++ short.take limit).filter (shownBy visible genuine)).length := by
    rw [filter_append, length_append]
    omega
  rw [pageFrom_nil hraw, idealPage, hshown, length_append]
  dsimp only
  by_cases hfull : limit ≤ (full.filter (shownBy visible genuine)).length
  · rw [if_pos hfull, if_pos (by omega), wholePage_append (by omega), filter_append,
      wholePage_append hfull]
  rw [if_neg hfull]
  by_cases hreach : limit ≤ ((full ++ short.take limit).filter (shownBy visible genuine)).length
  · obtain h | ⟨hstr, -⟩ | ⟨hlt, -⟩ := hgood
    · exact absurd h hfull
    · rw [if_pos hreach, hstr, if_neg Bool.false_ne_true, if_pos (by omega),
        wholePage_append hreach]
    · omega
  · obtain h | ⟨-, h⟩ | ⟨-, hnil⟩ := hgood
    · exact absurd h hfull
    · exact absurd h hreach
    · rw [if_neg hreach, hnil, append_nil, length_nil, if_neg (by omega)]

theorem length_wholePage (h : limit ≤ shown.length) : (wholePage limit key shown).items.length = limit := by
  rw [wholePage, length_take]
  omega

theorem next_wholePage (hpos : 0 < limit) (h : limit ≤ shown.length) :
    (wholePage limit key shown).next.isSome = true := by
  have hne : shown.take limit ≠ [] := ne_nil_of_length_pos (by rw [length_take]; omega)
  rw [wholePage, getLast?_eq_getLast_of_ne_nil hne]
  rfl

/-- A page that has as many rows as it ought to, and a cursor where it ought to have one, is good. -/
theorem goodRaw_of_shape (hpos : 0 < limit) (hraw : RawPages limit genuine rows full short)
    (hshape : (pageFrom limit strict visible genuine key [] full short).shape =
      (idealPage limit key (rows.filter (shownBy visible genuine))).shape) :
    GoodRaw limit strict visible genuine full short := by
  have hshown := filter_of_rawPages (shownBy visible genuine) hraw
  rw [pageFrom_nil hraw, idealPage, hshown, length_append] at hshape
  dsimp only at hshape
  by_cases hfull : limit ≤ (full.filter (shownBy visible genuine)).length
  · exact .inl hfull
  rw [if_neg hfull] at hshape
  by_cases hreach : limit ≤ ((full ++ short.take limit).filter (shownBy visible genuine)).length
  · cases hstr : strict with
    | false => exact .inr (.inl ⟨rfl, hreach⟩)
    | true =>
      -- a strict page of the last answer has no cursor
      rw [if_pos hreach, if_pos hstr, if_pos (by omega)] at hshape
      have hnext := congrArg Prod.snd hshape
      simp only [Page.shape, isSome_none] at hnext
      rw [next_wholePage hpos (by rw [length_append]; omega)] at hnext
      cases hnext
  · rw [if_neg hreach] at hshape
    have hcount := congrArg Prod.fst hshape
    refine .inr (.inr ⟨by omega, length_eq_zero_iff.1 ?_⟩)
    split at hcount
    · rw [Page.shape, Page.shape, length_wholePage (by rw [length_append]; omega)] at hcount
      dsimp only at hcount
      omega
    · simp only [Page.shape, length_append] at hcount
      omega

theorem pageFrom_of_not_goodRaw (key : α → κ) (hraw : RawPages limit genuine rows full short)
    (hbad : ¬ GoodRaw limit false visible genuine full short) :
    let reached := (full ++ short.take limit).filter (shownBy visible genuine)
    pageFrom limit false visible genuine key [] full short = ⟨reached, none⟩ ∧
      reached.length < (rows.filter (shownBy visible genuine)).length := by
  have hshown := filter_of_rawPages (shownBy visible genuine) hraw
  simp only [GoodRaw, not_or, not_and, true_implies] at hbad
  obtain ⟨hfull, hreach, hleft⟩ := hbad
  dsimp only
  rw [pageFrom_nil hraw]
  dsimp only
  refine ⟨by rw [if_neg hfull, if_neg hreach], ?_⟩
  have hpos := length_pos_of_ne_nil (hleft (by omega))
  rw [hshown, length_append]
  omega

theorem idealPages_of_le (hpos : 0 < limit) (h : limit ≤ shown.length) : idealPages limit key shown =
      wholePage limit key shown :: idealPages limit key (shown.drop limit) := by
  rw [idealPages, if_pos ⟨hpos, h⟩]

theorem idealPages_of_lt (h : shown.length < limit) : idealPages limit key shown = [⟨shown, none⟩] := by
  rw [idealPages, if_neg (by omega)]

theorem idealPages_eq_cons (hpos : 0 < limit) (shown : List α) :
    ∃ later, idealPages limit key shown = idealPage limit key shown :: later := by
  by_cases h : limit ≤ shown.length
  · exact ⟨_, by rw [idealPages_of_le hpos h, idealPage, if_pos h]⟩
  · exact ⟨[], by rw [idealPages_of_lt (by omega), idealPage, if_neg h]⟩

theorem flatMap_idealPages (hpos : 0 < limit) (shown : List α) :
    (idealPages limit key shown).flatMap Page.items = shown := by
  induction hn : shown.length using Nat.strong_induction_on generalizing shown with
  | h n ih =>
    by_cases h : limit ≤ shown.length
    · rw [idealPages_of_le hpos h, flatMap_cons,
        ih (shown.drop limit).length (by rw [length_drop]; omega) _ rfl]
      exact take_append_drop _ _
    · rw [idealPages_of_lt (by omega), flatMap_singleton]

theorem mem_of_idealPages_next (hpos : 0 < limit) (hpage : page ∈ idealPages limit key shown)
    (hnext : page.next = some c) : ∃ r ∈ shown, key r = c := by
  induction hn : shown.length using Nat.strong_induction_on generalizing shown with
  | h n ih =>
    by_cases h : limit ≤ shown.length
    · rw [idealPages_of_le hpos h, mem_cons] at hpage
      rcases hpage with rfl | hlater
      · obtain ⟨r, hr, rfl⟩ := map_eq_some_iff.1 hnext
        exact ⟨r, mem_of_mem_take (mem_of_getLast? hr), rfl⟩
      obtain ⟨r, hr, hkey⟩ :=
        ih (shown.drop limit).length (by rw [length_drop]; omega) hlater rfl
      exact ⟨r, mem_of_mem_drop hr, hkey⟩
    · rw [idealPages_of_lt (by omega), mem_singleton] at hpage
      rw [hpage] at hnext
      cases hnext

theorem drop_filter_eq_skip (hpos : 0 < limit) (h : limit ≤ (rows.filter shown).length) :
    (rows.filter shown).drop limit = (skip shown limit rows).filter shown := by
  obtain ⟨n, rfl⟩ : ∃ n, limit = n + 1 := ⟨limit - 1, by omega⟩
  obtain ⟨before, r, -, -, hdrop⟩ := skip_split h
  exact hdrop

variable {σ : Type} {rows : List α} {ask : Option κ → Option σ} {next : σ → Option κ}
  {answer : Page α κ → σ}

/-- A client that looks at a part of each answer, which has the cursor in it. -/
theorem follow_map (hnext : ∀ a, next' (f a) = next a) (fuel : Nat) (cursor : Option κ) :
    follow (fun c => (ask c).map f) next' fuel cursor =
      (follow ask next fuel cursor).map (List.map f) := by
  induction fuel generalizing cursor with
  | zero => rfl
  | succ fuel ih =>
    rw [follow, follow]
    cases ask cursor with
    | none => rfl
    | some a =>
      simp only [map_some, bind_some, hnext]
      cases next a with
      | none => rfl
      | some c =>
        dsimp only
        rw [ih]
        cases follow ask next fuel (some c) <;> rfl

structure Pager (limit : Nat) (strict : Bool) (visible genuine : α → Bool) (key : α → κ)
    (rows : List α) (ask : Option κ → Option σ) (next : σ → Option κ) (answer : Page α κ → σ) :
    Prop where
  pos : 0 < limit
  asks : ∀ {cursor : Option κ} {start full short : List α}, At key rows cursor start →
    RawPages limit genuine start full short →
    ask cursor = some (answer (pageFrom limit strict visible genuine key [] full short))
  next_answer : ∀ page, next (answer page) = page.next

namespace Pager

section

variable (P : Pager limit strict visible genuine key rows ask next answer)

include P

/-- After a whole page the client goes on from its last row. -/
theorem whole (hat : At key rows cursor start) (hwhole : limit ≤ (start.filter shown).length) :
    ∃ r, (wholePage limit key (start.filter shown)).next = some (key r) ∧
      At key rows (some (key r)) (skip shown limit start) ∧
      (skip shown limit start).length < start.length := by
  obtain ⟨n, hn⟩ : ∃ n, limit = n + 1 := ⟨limit - 1, by have := P.pos; omega⟩
  rw [hn] at hwhole ⊢
  obtain ⟨before, r, hsplit, htake, -⟩ := skip_split hwhole
  have hlen := congrArg List.length hsplit
  rw [length_append, length_cons] at hlen
  refine ⟨r, ?_, ?_, by omega⟩
  · rw [wholePage, htake, getLast?_concat, map_some]
  · rw [hsplit] at hat
    exact hat.later

/-- Where every page is good the client sees the ideal pages.  By induction on the rows that are left. -/
theorem follow_eq (hat : At key rows cursor start) (hgood : GoodPages limit strict visible genuine start)
    (hfuel : start.length < fuel) : follow ask next fuel cursor =
      some ((idealPages limit key (start.filter (shownBy visible genuine))).map answer) := by
  induction fuel generalizing cursor start with
  | zero => omega
  | succ fuel ih =>
    obtain ⟨full, short, hraw⟩ := exists_rawPages P.pos genuine start
    have hfirst := hgood start (.first start) full short hraw
    rw [follow, P.asks hat hraw, pageFrom_of_goodRaw hraw hfirst, bind_some, P.next_answer,
      idealPage]
    by_cases hwhole : limit ≤ (start.filter (shownBy visible genuine)).length
    · obtain ⟨r, hnext, hlater, hlen⟩ := P.whole hat hwhole
      have hrest := ih hlater (fun start' h => hgood start' (.next hwhole h)) (by omega)
      rw [if_pos hwhole, hnext, idealPages_of_le P.pos hwhole, drop_filter_eq_skip P.pos hwhole]
      dsimp only
      rw [hrest]
      rfl
    · rw [if_neg hwhole, idealPages_of_lt (by omega)]
      rfl

theorem follow_cases (hat : At key rows cursor start) (hraw : RawPages limit genuine start full short)
    (h : follow ask next fuel cursor = some answers) :
    ∃ fuel' later, answers = answer (pageFrom limit strict visible genuine key [] full short) :: later ∧
      match (pageFrom limit strict visible genuine key [] full short).next with
      | none => later = []
      | some c => follow ask next fuel' (some c) = some later := by
  cases fuel with
  | zero => cases h
  | succ fuel =>
    rw [follow, P.asks hat hraw, bind_some, P.next_answer] at h
    cases hnext : (pageFrom limit strict visible genuine key [] full short).next with
    | none =>
      rw [hnext] at h
      cases h
      exact ⟨fuel, [], rfl, rfl⟩
    | some c =>
      rw [hnext, map_eq_some_iff] at h
      obtain ⟨later, hlater, rfl⟩ := h
      exact ⟨fuel, later, rfl, hlater⟩

theorem goodRaw_of_follow (hans : ∀ page, shape (answer page) = page.shape) (hat : At key rows cursor start)
    (hraw : RawPages limit genuine start full short) (h : follow ask next fuel cursor = some answers)
    (hshape : answers.map shape =
      (idealPages limit key (start.filter (shownBy visible genuine))).map Page.shape) :
    GoodRaw limit strict visible genuine full short := by
  obtain ⟨-, later, rfl, -⟩ := P.follow_cases hat hraw h
  obtain ⟨laterPages, hideal⟩ := idealPages_eq_cons P.pos (start.filter (shownBy visible genuine))
  rw [hideal, map_cons, map_cons, List.cons.injEq, hans] at hshape
  exact goodRaw_of_shape P.pos hraw hshape.1

theorem goodPages_of_follow (hans : ∀ page, shape (answer page) = page.shape) (hat : At key rows cursor start)
    (h : follow ask next fuel cursor = some answers) (hshape : answers.map shape =
      (idealPages limit key (start.filter (shownBy visible genuine))).map Page.shape) :
    GoodPages limit strict visible genuine start := by
  intro start' hstart
  induction hstart generalizing cursor fuel answers with
  | first start =>
    intro full short hraw
    exact P.goodRaw_of_follow hans hat hraw h hshape
  | @next start start' hwhole hstart ih =>
    obtain ⟨full, short, hraw⟩ := exists_rawPages P.pos genuine start
    have hgood := P.goodRaw_of_follow hans hat hraw h hshape
    obtain ⟨fuel', later, rfl, hlater⟩ := P.follow_cases hat hraw h
    obtain ⟨r, hnext, hrest, -⟩ := P.whole hat hwhole
    rw [pageFrom_of_goodRaw hraw hgood, idealPage, if_pos hwhole, hnext] at hlater
    rw [idealPages_of_le P.pos hwhole, drop_filter_eq_skip P.pos hwhole, map_cons,
      map_cons, List.cons.injEq] at hshape
    exact ih hrest hlater hshape.2

end

section Complete

variable {count : σ → Nat} (P : Pager limit false visible genuine key rows ask next answer)
  (hans : ∀ page, count (answer page) = page.items.length)

include P hans

theorem goodRaw_of_complete (hat : At key rows cursor start)
    (hraw : RawPages limit genuine start full short) (h : follow ask next fuel cursor = some answers)
    (hcount : (answers.map count).sum = (start.filter (shownBy visible genuine)).length) :
    GoodRaw limit false visible genuine full short := by
  by_contra hbad
  obtain ⟨hpage, hlt⟩ := pageFrom_of_not_goodRaw key hraw hbad
  obtain ⟨_, later, rfl, hlater⟩ := P.follow_cases hat hraw h
  rw [hpage] at hlater hcount
  rw [show later = [] from hlater] at hcount
  simp only [map_cons, map_nil, sum_cons, sum_nil, hans] at hcount
  omega

theorem sum_count_le (hat : At key rows cursor start)
    (h : follow ask next fuel cursor = some answers) :
    (answers.map count).sum ≤ (start.filter (shownBy visible genuine)).length := by
  induction hn : start.length using Nat.strong_induction_on generalizing start cursor fuel answers with
  | h n ih =>
    obtain ⟨full, short, hraw⟩ := exists_rawPages P.pos genuine start
    obtain ⟨_, later, rfl, hlater⟩ := P.follow_cases hat hraw h
    rw [map_cons, sum_cons, hans]
    by_cases hgood : GoodRaw limit false visible genuine full short
    · rw [pageFrom_of_goodRaw hraw hgood, idealPage] at hlater ⊢
      by_cases hwhole : limit ≤ (start.filter (shownBy visible genuine)).length
      · obtain ⟨r, hnext, hrest, hlen⟩ := P.whole hat hwhole
        rw [if_pos hwhole] at hlater ⊢
        rw [hnext] at hlater
        have htail := ih _ (hn ▸ hlen) hrest hlater rfl
        rw [← drop_filter_eq_skip P.pos hwhole, length_drop] at htail
        rw [length_wholePage hwhole]
        omega
      · rw [if_neg hwhole] at hlater ⊢
        rw [show later = [] from hlater]
        simp
    · obtain ⟨hpage, hlt⟩ := pageFrom_of_not_goodRaw key hraw hgood
      rw [hpage] at hlater ⊢
      rw [show later = [] from hlater]
      simp only [map_nil, sum_nil]
      omega

/-- A client that gets every row it may see gets good pages, where those are not strict. -/
theorem goodPages_of_complete (hat : At key rows cursor start)
    (h : follow ask next fuel cursor = some answers)
    (hcount : (answers.map count).sum = (start.filter (shownBy visible genuine)).length) :
    GoodPages limit false visible genuine start := by
  intro start' hstart
  induction hstart generalizing cursor fuel answers with
  | first start =>
    intro full short hraw
    exact P.goodRaw_of_complete hans hat hraw h hcount
  | @next start start' hwhole hstart ih =>
    obtain ⟨full, short, hraw⟩ := exists_rawPages P.pos genuine start
    have hgood := P.goodRaw_of_complete hans hat hraw h hcount
    obtain ⟨fuel', later, rfl, hlater⟩ := P.follow_cases hat hraw h
    obtain ⟨r, hnext, hrest, -⟩ := P.whole hat hwhole
    rw [pageFrom_of_goodRaw hraw hgood, idealPage, if_pos hwhole] at hlater hcount
    rw [hnext] at hlater
    rw [map_cons, sum_cons, hans, length_wholePage hwhole] at hcount
    apply ih hrest hlater
    rw [← drop_filter_eq_skip P.pos hwhole, length_drop]
    omega

end Complete

end Pager

end Follow

/-! ## 5. A store that keeps all it cuts -/

section Kept

theorem shownBy_true : shownBy visible (fun _ => true) = visible := by
  funext r
  rw [shownBy, Bool.true_and]

/-- Its answers have `limit` rows as long as there are so many. -/
theorem rawPages_true (hpos : 0 < limit) (hraw : RawPages limit (fun _ => true) rows full short) :
    short.length < limit ∧ full = rows.take (rows.length / limit * limit) := by
  have hshort : short.length < limit := by
    have hstops := hraw.stops
    rw [filter_true, length_take] at hstops
    omega
  obtain ⟨n, hn⟩ := hraw.whole
  have hlen := congrArg List.length hraw.split
  rw [length_append, hn] at hlen
  have hdiv : rows.length / limit = n := by
    rw [hlen, mul_add_div hpos, div_eq_of_lt hshort, add_zero]
  refine ⟨hshort, ?_⟩
  rw [hdiv, hraw.split, take_append_of_le_length (by rw [hn, mul_comm]),
    take_of_length_le (by rw [hn, mul_comm])]

theorem goodStart_strict_iff (hpos : 0 < limit) : GoodStart limit true visible (fun _ => true) start ↔
      (limit ≤ (start.filter visible).length →
        limit ≤ ((start.take (start.length / limit * limit)).filter visible).length) := by
  obtain ⟨full, short, hraw⟩ := exists_rawPages hpos (fun _ => true) start
  have hgood : ∀ full' short', RawPages limit (fun _ => true) start full' short' →
      (GoodRaw limit true visible (fun _ => true) full' short' ↔
        (limit ≤ (start.filter visible).length → limit ≤ (full'.filter visible).length)) := by
    intro full' short' hraw'
    obtain ⟨hshort, -⟩ := rawPages_true hpos hraw'
    have htake : full' ++ short'.take limit = start := by
      rw [take_of_length_le (by omega), hraw'.split]
    have hdrop : short'.drop limit = [] := drop_eq_nil_of_le (by omega)
    simp only [GoodRaw, shownBy_true, htake, hdrop, filter_nil, and_true, Bool.true_eq_false,
      false_and, false_or]
    omega
  constructor
  · intro h
    rw [← (rawPages_true hpos hraw).2]
    exact (hgood full short hraw).1 (h full short hraw)
  intro h full' short' hraw'
  rw [← (rawPages_true hpos hraw').2] at h
  exact (hgood full' short' hraw').2 h

theorem goodPages_lenient (hpos : 0 < limit) (rows : List α) :
    GoodPages limit false visible (fun _ => true) rows := by
  intro start _ full short hraw
  obtain ⟨hshort, -⟩ := rawPages_true hpos hraw
  by_cases h : limit ≤ ((full ++ short.take limit).filter visible).length
  · right
    left
    rw [shownBy_true]
    exact ⟨rfl, h⟩
  · right
    right
    rw [shownBy_true, drop_eq_nil_of_le (by omega : short.length ≤ limit)]
    exact ⟨by omega, rfl⟩

theorem skip_suffix (shown : α → Bool) (n : Nat) (rows : List α) : skip shown n rows <:+ rows := by
  fun_induction skip shown n rows with
  | case1 rows => exact suffix_refl rows
  | case2 n => exact nil_suffix
  | case3 n r rest hshown ih => exact ih.trans (suffix_cons r rest)
  | case4 n r rest hshown ih => exact ih.trans (suffix_cons r rest)

theorem PageStart.mem (h : PageStart limit shown rows start) (hr : r ∈ start) : r ∈ rows := by
  induction h with
  | first rows => exact hr
  | next _ _ ih => exact (skip_suffix _ _ _).subset (ih hr)

theorem goodPages_of_forall_visible (hpos : 0 < limit) (hvis : ∀ r ∈ rows, visible r = true) :
    GoodPages limit true visible (fun _ => true) rows := by
  intro start hstart
  have hall : ∀ r ∈ start, visible r = true := fun r hr => hvis r (hstart.mem hr)
  rw [goodStart_strict_iff hpos, filter_eq_self.2 hall,
    filter_eq_self.2 fun r hr => hall r (mem_of_mem_take hr), length_take]
  intro hle
  have hone : 1 ≤ start.length / limit := (one_le_div_iff hpos).2 hle
  have hmul : 1 * limit ≤ start.length / limit * limit := mul_le_mul_right _ hone
  omega

end Kept

section Search

variable {limit : Nat} {key : α → κ} {query : Option κ → List α}

/-- Ask for page after page until a row meets `p` or a page is short. -/
def anyInPages (limit : Nat) (key : α → κ) (query : Option κ → List α) (p : α → Bool) :
    Nat → Option κ → Bool
  | 0, _ => false
  | fuel + 1, cursor =>
    let found := query cursor
    if found.any p then true
    else if found.length < limit then false
    else anyInPages limit key query p fuel (found.getLast?.map key)

theorem anyInPages_eq (hpos : 0 < limit) (hserv : Serves limit (fun _ => true) key rows query)
    (p : α → Bool) (hat : At key rows cursor rest) (hfuel : rest.length < fuel) :
    anyInPages limit key query p fuel cursor = rest.any p := by
  induction fuel generalizing cursor rest with
  | zero => omega
  | succ fuel ih =>
    have hpage : query cursor = rest.take limit := by
      rw [hserv cursor rest hat, filter_eq_self]
      intro r _
      rfl
    have hsplit : rest.any p = ((rest.take limit).any p || (rest.drop limit).any p) := by
      rw [← any_append, take_append_drop]
    rw [anyInPages, hpage, hsplit]
    by_cases hany : (rest.take limit).any p = true
    · rw [if_pos hany, hany, Bool.true_or]
    rw [if_neg hany, Bool.eq_false_of_not_eq_true hany, Bool.false_or, length_take]
    split
    · -- a short page is the last one
      rw [drop_eq_nil_of_le (by omega)]
      rfl
    -- a full page has a last row, and the search goes on after it
    have hne : rest.take limit ≠ [] := ne_nil_of_length_pos (by rw [length_take]; omega)
    obtain ⟨before, r, hlast⟩ := (eq_nil_or_concat (rest.take limit)).resolve_left hne
    rw [concat_eq_append] at hlast
    have hrest : rest = before ++ r :: rest.drop limit := by
      calc rest = rest.take limit ++ rest.drop limit := (take_append_drop _ _).symm
        _ = before ++ r :: rest.drop limit := by rw [hlast, append_assoc]; rfl
    rw [hlast, getLast?_concat, map_some]
    apply ih
    · rw [hrest] at hat
      exact hat.later
    · rw [length_drop]
      omega

end Search

end Paging

end Reasoning
