import Gradatum.Reasoning.Paging

/-!
# Pages from a bounded number of answers

A server that fills a page up, as in `Reasoning.Paging`, may bound the number of answers it asks for.  A page
that they do not fill has the last row that was looked at as its cursor.
-/

namespace Reasoning

open List Option

section BoundedPages

variable {α κ : Type}

/-! ## 1. The loop -/

def fillWithin (limit : Nat) (visible : α → Bool) (key : α → κ) (query : Option κ → List α) :
    Nat → Option κ → List α → Page α κ
  | 0, cursor, items => ⟨items, cursor⟩
  | rounds + 1, cursor, items =>
    let records := query cursor
    let scanned := scan limit visible items records
    if scanned.1.length = limit then ⟨scanned.1, scanned.2.map key⟩
    else if records.length < limit then ⟨scanned.1, none⟩
    else fillWithin limit visible key query rounds (records.getLast?.map key) scanned.1

/-! ## 2. One page -/

variable {visible : α → Bool} {key : α → κ} {rows : List α} {items rest : List α}

inductive Leaves (visible : α → Bool) (key : α → κ) (items rest : List α) : Page α κ → Prop
  | nothing : Leaves visible key items rest ⟨items ++ rest.filter visible, none⟩
  | after (before : List α) (r : α) (later : List α) (split : rest = before ++ r :: later) :
      Leaves visible key items rest ⟨items ++ (before ++ [r]).filter visible, some (key r)⟩

/-- A page that starts with some rows and goes on with the rows after them. -/
theorem Leaves.append (h : Leaves visible key (items ++ (before ++ [r]).filter visible) later page) :
    Leaves visible key items (before ++ r :: later) page := by
  cases h with
  | nothing =>
    have hitems : items ++ (before ++ [r]).filter visible ++ later.filter visible =
        items ++ (before ++ r :: later).filter visible := by
      rw [append_assoc, ← filter_append, append_assoc, singleton_append]
    rw [hitems]
    exact .nothing
  | after before' r' later' split =>
    have hitems : items ++ (before ++ [r]).filter visible ++ (before' ++ [r']).filter visible =
        items ++ (before ++ r :: before' ++ [r']).filter visible := by
      rw [append_assoc, ← filter_append]
      simp only [append_assoc, cons_append, nil_append]
    rw [hitems]
    refine .after (before ++ r :: before') r' later' ?_
    rw [split, append_assoc, cons_append]

/-- One round of the loop ends the page, or it takes a whole answer and goes on after it. -/
theorem fillWithin_round (hserv : Serves limit (fun _ => true) key rows query) (hpos : 0 < limit)
    (visible : α → Bool) (rounds : Nat) (hat : At key rows cursor rest) (hroom : items.length < limit) :
    Leaves visible key items rest (fillWithin limit visible key query (rounds + 1) cursor items) ∨
      ∃ before r later, rest = before ++ r :: later ∧
        (items ++ (before ++ [r]).filter visible).length < limit ∧
        fillWithin limit visible key query (rounds + 1) cursor items =
          fillWithin limit visible key query rounds (some (key r))
            (items ++ (before ++ [r]).filter visible) := by
  have hquery : query cursor = rest.take limit := by
    rw [hserv cursor rest hat, filter_true]
  have hrest : rest = rest.take limit ++ rest.drop limit := (take_append_drop limit rest).symm
  rw [fillWithin, hquery]
  rcases scan_cases visible (rest.take limit) hroom with
    ⟨hscan, hlt⟩ | ⟨before, r, later, hsplit, -, hscan, hlen⟩
  · rw [hscan, if_neg hlt.ne]
    by_cases hshort : (rest.take limit).length < limit
    · have hwhole : rest.take limit = rest := by
        rw [length_take] at hshort
        exact take_of_length_le (by omega)
      rw [if_pos hshort, hwhole]
      exact .inl .nothing
    · obtain ⟨before, r, hlast⟩ : ∃ before r, rest.take limit = before ++ [r] := by
        refine (eq_nil_or_concat' _).resolve_left fun hnil => ?_
        rw [hnil, length_nil] at hshort
        exact hshort hpos
      refine .inr ⟨before, r, rest.drop limit, ?_, ?_, ?_⟩
      · rw [hlast, append_assoc, singleton_append] at hrest
        exact hrest
      · rw [← hlast]
        exact hlt
      · rw [if_neg hshort, hlast, getLast?_concat, map_some]
  · left
    rw [hscan, if_pos hlen, map_some]
    refine .after before r (later ++ rest.drop limit) ?_
    rw [hsplit, append_assoc, cons_append] at hrest
    exact hrest

/-- A page leaves nothing, or the rows after its cursor.  By induction on the number of answers. -/
theorem leaves_fillWithin (hserv : Serves limit (fun _ => true) key rows query) (hpos : 0 < limit)
    (visible : α → Bool) (rounds : Nat) (hat : At key rows cursor rest) (hroom : items.length < limit) :
    Leaves visible key items rest (fillWithin limit visible key query (rounds + 1) cursor items) := by
  induction rounds generalizing cursor items rest with
  | zero =>
    rcases fillWithin_round hserv hpos visible 0 hat hroom with
      hleav | ⟨before, r, later, hsplit, -, hpage⟩
    · exact hleav
    · rw [hpage]
      exact .after before r later hsplit
  | succ rounds ih =>
    rcases fillWithin_round hserv hpos visible (rounds + 1) hat hroom with
      hleav | ⟨before, r, later, hsplit, hmore, hpage⟩
    · exact hleav
    rw [hpage]
    subst hsplit
    exact (ih hat.later hmore).append

theorem scan_congr (h : ∀ r ∈ records, visible r = visible' r) (items : List α) :
    scan limit visible items records = scan limit visible' items records := by
  induction records generalizing items with
  | nil => rfl
  | cons r records ih =>
    rw [forall_mem_cons] at h
    rw [scan, scan, h.1, ih h.2]

theorem mem_fillWithin (h : r ∈ (fillWithin limit visible key query rounds cursor items).items)
    (hroom : items.length < limit) : r ∈ items ∨ visible r = true ∧ ∃ c, r ∈ query c := by
  induction rounds generalizing cursor items with
  | zero => exact .inl h
  | succ rounds ih =>
    -- what the scan adds
    have hadded : ∀ looked : List α, looked ⊆ query cursor → r ∈ items ++ looked.filter visible →
        r ∈ items ∨ visible r = true ∧ ∃ c, r ∈ query c := by
      intro looked hlooked hr
      refine (mem_append.1 hr).imp_right fun hr => ?_
      exact ⟨(mem_filter.1 hr).2, cursor, hlooked (mem_filter.1 hr).1⟩
    rw [fillWithin] at h
    rcases scan_cases visible (query cursor) hroom with
      ⟨hscan, hlt⟩ | ⟨before, r', later, hsplit, -, hscan, hlen⟩
    · rw [hscan, if_neg hlt.ne] at h
      split at h
      · exact hadded _ (Subset.refl _) h
      rcases ih h hlt with hr | hr
      · exact hadded _ (Subset.refl _) hr
      · exact .inr hr
    · rw [hscan, if_pos hlen] at h
      exact hadded _ (by simp [hsplit]) h

theorem follow_fillWithin (hserv : Serves limit (fun _ => true) key rows query) (hpos : 0 < limit)
    (visible : α → Bool) (rounds : Nat) (hfuel : rest.length < fuel) (hat : At key rows cursor rest) :
    ∃ pages, follow (fun c => some (fillWithin limit visible key query (rounds + 1) c [])) Page.next fuel
        cursor = some pages ∧ pages.flatMap Page.items = rest.filter visible := by
  induction fuel generalizing cursor rest with
  | zero => omega
  | succ fuel ih =>
    have hroom : ([] : List α).length < limit := hpos
    have hleav := leaves_fillWithin hserv hpos visible rounds hat hroom
    rw [follow, bind_some]
    cases hpage : fillWithin limit visible key query (rounds + 1) cursor [] with
    | mk items next =>
      rw [hpage] at hleav
      cases hleav with
      | nothing => exact ⟨[_], rfl, by simp⟩
      | after before r later split =>
        subst split
        obtain ⟨pages, hpages, hitems⟩ := ih
          (by rw [length_append, length_cons] at hfuel; omega) hat.later
        refine ⟨_ :: pages, by dsimp only; rw [hpages, map_some], ?_⟩
        rw [flatMap_cons, hitems, nil_append, ← filter_append, append_assoc,
          singleton_append]

theorem ask_of_mem_follow {next : σ → Option κ} (h : follow ask next fuel cursor = some pages)
    (hpage : page ∈ pages) : ∃ c, ask c = some page := by
  induction fuel generalizing cursor pages with
  | zero => cases h
  | succ fuel ih =>
    rw [follow, bind_eq_some_iff] at h
    obtain ⟨answer, hask, h⟩ := h
    cases hnext : next answer with
    | none =>
      rw [hnext] at h
      cases h
      rw [mem_singleton.1 hpage]
      exact ⟨cursor, hask⟩
    | some c =>
      rw [hnext, map_eq_some_iff] at h
      obtain ⟨later, hlater, rfl⟩ := h
      rcases mem_cons.1 hpage with rfl | hpage
      · exact ⟨cursor, hask⟩
      · exact ih hlater hpage

/-- Among the first `n` of sorted rows are those that fewer than `n` precede. -/
theorem StrictOrder.mem_take_iff (hord : StrictOrder precedes)
    (hsort : rows.Pairwise fun a b => precedes (key a) (key b) = true) (hr : r ∈ rows) (n : Nat) :
    r ∈ rows.take n ↔ (rows.filter fun a => precedes (key a) (key r)).length < n := by
  obtain ⟨before, later, rfl⟩ := append_of_mem hr
  obtain ⟨-, hlater, hbef⟩ := pairwise_append.1 hsort
  rw [pairwise_cons] at hlater
  have hself : ∀ a, precedes a a = false := by
    intro a
    cases haa : precedes a a with
    | false => rfl
    | true => rw [← haa]; exact hord.asymm _ _ haa
  have hfilt : (before ++ r :: later).filter (fun a => precedes (key a) (key r)) = before := by
    have hall : before.filter (fun a => precedes (key a) (key r)) = before := by
      rw [filter_eq_self]
      exact fun a ha => hbef a ha r mem_cons_self
    have hnone : later.filter (fun a => precedes (key a) (key r)) = [] := by
      rw [filter_eq_nil_iff]
      intro a ha
      rw [hord.asymm _ _ (hlater.1 a ha)]
      exact Bool.false_ne_true
    rw [filter_append, filter_cons_of_neg (by rw [hself]; exact Bool.false_ne_true), hall, hnone,
      append_nil]
  rw [hfilt]
  constructor
  · intro hmem
    by_contra hle
    -- the first rows all come before `r`
    rw [take_append_of_le_length (by omega)] at hmem
    have hrr := hbef r (mem_of_mem_take hmem) r mem_cons_self
    rw [hself] at hrr
    cases hrr
  · intro hlt
    rw [take_append, mem_append]
    right
    obtain ⟨m, hm⟩ : ∃ m, n - before.length = m + 1 := ⟨n - before.length - 1, by omega⟩
    rw [hm, take_succ_cons]
    exact mem_cons_self

end BoundedPages

end Reasoning
