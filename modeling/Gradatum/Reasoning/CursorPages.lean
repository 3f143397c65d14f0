import Gradatum.Reasoning.Paging

/-!
# Pages that are not in the order of their cursor

A cursor is the key of the last row of a page, and the next page has the rows with a greater key; but the rows
are in an order of their own.  The pages have every row once just when the two agree wherever a page ends.
-/

namespace Reasoning

open List Option Nat

section CursorPages

variable {α κ : Type} [LinearOrder κ]

/-! ## 1. Pages -/

def beyond (key : α → κ) (rows : List α) (cursor : Option κ) : List α :=
  rows.filter fun r => cursor.all (· < key r)

/-- The page of the rows that were fetched, of which there is one too many if there is a next page. -/
def cutPage (limit : Nat) (key : α → κ) (fetched : List α) : Page α κ :=
  if limit < fetched.length then ⟨fetched.take limit, (fetched.take limit).getLast?.map key⟩
  else ⟨fetched, none⟩

def askPage (limit : Nat) (key : α → κ) (valid : α → Bool) (rows : List α) (cursor : Option κ) :
    Option (Page α κ) :=
  let fetched := (beyond key rows cursor).take (limit + 1)
  if fetched.all valid then some (cutPage limit key fetched) else none

/-- After `m` rows the keys agree with the order: the last key is the greatest so far, and all keys that
follow are greater. -/
def Cut (key : α → κ) (rows : List α) (m : Nat) : Prop :=
  ∀ c, (rows.take m).getLast? = some c →
    (∀ r ∈ rows.take m, key r ≤ key c) ∧ ∀ r ∈ rows.drop m, key c < key r

/-- The keys agree with the order at the end of every page. -/
def Separated (limit : Nat) (key : α → κ) (rows : List α) : Prop :=
  ∀ n, (n + 1) * limit < rows.length → Cut key rows ((n + 1) * limit)

/-! ## 2. The end of one page -/

variable {key : α → κ} {rows rest : List α}

theorem separated_of_length_le (h : rest.length ≤ limit) : Separated limit key rest := by
  intro n hn
  have hmul : limit ≤ (n + 1) * limit := Nat.le_mul_of_pos_left limit (by omega)
  omega

theorem getLast?_take_drop (hpos : 0 < m) (hlt : limit + m ≤ rest.length) :
    ((rest.drop limit).take m).getLast? = (rest.take (limit + m)).getLast? := by
  rw [take_add, getLast?_append]
  have hne : (rest.drop limit).take m ≠ [] := by
    intro hnil
    have hlen := congrArg List.length hnil
    simp only [length_take, length_drop, length_nil] at hlen
    omega
  obtain ⟨c, hc⟩ := ne_none_iff_exists'.1 (mt getLast?_eq_none_iff.1 hne)
  rw [hc]
  rfl

/-- The ends of the pages are that of the first page and those of the others. -/
theorem separated_iff (hpos : 0 < limit) (hlt : limit < rest.length) :
    Separated limit key rest ↔ Cut key rest limit ∧ Separated limit key (rest.drop limit) := by
  have hsucc : ∀ n, (n + 1 + 1) * limit = limit + (n + 1) * limit := fun n => by
    rw [add_mul (n + 1) 1, one_mul, add_comm]
  constructor
  · intro h
    have hfirst := h 0 (by omega)
    rw [zero_add, one_mul] at hfirst
    refine ⟨hfirst, fun n hn c hc => ?_⟩
    rw [length_drop] at hn
    have hm : 0 < (n + 1) * limit := mul_pos (by omega) hpos
    rw [getLast?_take_drop hm (by omega)] at hc
    have hcut := h (n + 1) (by rw [hsucc]; omega)
    rw [hsucc] at hcut
    obtain ⟨hbef, hafter⟩ := hcut c hc
    refine ⟨fun r hr => hbef r ?_, fun r hr => hafter r ?_⟩
    · rw [take_add]
      exact mem_append_right _ hr
    · rwa [drop_drop] at hr
  · rintro ⟨hfirst, hoth⟩ n hn
    cases n with
    | zero =>
      rw [zero_add, one_mul]
      exact hfirst
    | succ n =>
      rw [hsucc] at hn ⊢
      intro c hc
      have hm : 0 < (n + 1) * limit := mul_pos (by omega) hpos
      rw [← getLast?_take_drop hm (by omega)] at hc
      obtain ⟨hbef, hafter⟩ := hoth n (by rw [length_drop]; omega) c hc
      have hdrop : c ∈ rest.drop limit := mem_of_mem_take (mem_of_getLast? hc)
      refine ⟨fun r hr => ?_, fun r hr => hafter r ?_⟩
      · rw [take_add] at hr
        rcases mem_append.1 hr with hr | hr
        · obtain ⟨d, hd⟩ : ∃ d, (rest.take limit).getLast? = some d := by
            apply ne_none_iff_exists'.1
            rw [Ne, getLast?_eq_none_iff]
            exact ne_nil_of_mem hr
          obtain ⟨hle, hgt⟩ := hfirst d hd
          exact (hle r hr).trans (hgt c hdrop).le
        · exact hbef r hr
      · rwa [drop_drop]

theorem beyond_some (hc : ((beyond key rows cursor).take limit).getLast? = some c) :
    beyond key rows (some (key c)) = (beyond key rows cursor).filter fun r => key c < key r := by
  have hcurs : cursor.all (· < key c) = true := (mem_filter.1 (mem_of_mem_take (mem_of_getLast? hc))).2
  unfold beyond
  rw [List.filter_filter]
  apply filter_congr
  intro r _
  cases cursor with
  | none => simp
  | some d =>
    simp only [all_some, decide_eq_true_eq] at hcurs
    simp only [all_some, ← Bool.decide_and, decide_eq_decide]
    exact ⟨fun h => ⟨h, hcurs.trans h⟩, fun h => h.1⟩

/-- What the next page starts from, if the keys agree with the order at the end of this one. -/
theorem filter_eq_drop_of_cut (hc : (rest.take limit).getLast? = some c) (hcut : Cut key rest limit) :
    (rest.filter fun r => key c < key r) = rest.drop limit := by
  obtain ⟨hbef, hafter⟩ := hcut c hc
  have hleft : ((rest.take limit).filter fun r => key c < key r) = [] := by
    rw [filter_eq_nil_iff]
    intro r hr
    simpa using hbef r hr
  have hright : ((rest.drop limit).filter fun r => key c < key r) = rest.drop limit := by
    rw [filter_eq_self]
    intro r hr
    simpa using hafter r hr
  conv_lhs => rw [← take_append_drop limit rest]
  rw [filter_append, hleft, hright, nil_append]

/-! ## 3. The chain of pages -/

theorem askPage_cases (hpos : 0 < limit) (h : askPage limit key valid rows cursor = some page) :
    ((beyond key rows cursor).length ≤ limit ∧ page = ⟨beyond key rows cursor, none⟩ ∧
      ∀ r ∈ beyond key rows cursor, valid r = true) ∨
    ∃ c, limit < (beyond key rows cursor).length ∧ ((beyond key rows cursor).take limit).getLast? = some c ∧
      page = ⟨(beyond key rows cursor).take limit, some (key c)⟩ ∧
      ∀ r ∈ (beyond key rows cursor).take limit, valid r = true := by
  unfold askPage at h
  dsimp only at h
  split at h
  · rename_i hvalid
    rw [List.all_eq_true] at hvalid
    have hpage := (Option.some.inj h).symm
    unfold cutPage at hpage
    rw [length_take] at hpage
    by_cases hlt : limit < (beyond key rows cursor).length
    · rw [if_pos (by omega), take_take, Nat.min_eq_left (by omega)] at hpage
      obtain ⟨c, hc⟩ : ∃ c, ((beyond key rows cursor).take limit).getLast? = some c := by
        apply ne_none_iff_exists'.1
        rw [Ne, getLast?_eq_none_iff, ← length_eq_zero_iff, length_take]
        omega
      rw [hc] at hpage
      refine .inr ⟨c, hlt, hc, hpage, fun r hr => hvalid r ?_⟩
      exact (take_subset_take_left _ (by omega)) hr
    · rw [if_neg (by omega), take_of_length_le (by omega)] at hpage
      refine .inl ⟨by omega, hpage, fun r hr => hvalid r ?_⟩
      rwa [take_of_length_le (by omega)]
  · cases h

theorem length_filter_beyond_lt (hc : c ∈ rest) :
    (rest.filter fun r => key c < key r).length < rest.length := by
  rw [length_filter_lt_length_iff_exists]
  exact ⟨c, hc, by simp⟩

section

variable (hpos : 0 < limit)

include hpos

theorem follow_askPage_isSome (hvalid : ∀ r ∈ rows, valid r = true)
    (hfuel : (beyond key rows cursor).length < fuel) :
    (follow (askPage limit key valid rows) Page.next fuel cursor).isSome := by
  induction fuel generalizing cursor with
  | zero => omega
  | succ fuel ih =>
    obtain ⟨page, hpage⟩ : ∃ page, askPage limit key valid rows cursor = some page := by
      unfold askPage
      dsimp only
      rw [if_pos]
      · exact ⟨_, rfl⟩
      · rw [List.all_eq_true]
        exact fun r hr => hvalid r (mem_filter.1 (mem_of_mem_take hr)).1
    rw [follow, hpage, bind_some]
    rcases askPage_cases hpos hpage with ⟨-, rfl, -⟩ | ⟨c, -, hc, rfl, -⟩
    · rfl
    have hless : (beyond key rows (some (key c))).length < (beyond key rows cursor).length := by
      rw [beyond_some hc]
      exact length_filter_beyond_lt (mem_of_mem_take (mem_of_getLast? hc))
    rw [isSome_map]
    exact ih (by omega)

theorem mem_of_follow_askPage (h : follow (askPage limit key valid rows) Page.next fuel cursor = some pages)
    (hr : r ∈ pages.flatMap Page.items) : r ∈ beyond key rows cursor ∧ valid r = true := by
  induction fuel generalizing cursor pages with
  | zero => cases h
  | succ fuel ih =>
    rw [follow] at h
    obtain ⟨page, hpage, h⟩ := bind_eq_some_iff.1 h
    rcases askPage_cases hpos hpage with ⟨-, rfl, hvalid⟩ | ⟨c, -, hc, rfl, hvalid⟩
    · obtain rfl := Option.some.inj h
      rw [flatMap_singleton] at hr
      exact ⟨hr, hvalid r hr⟩
    obtain ⟨more, hmore, rfl⟩ := map_eq_some_iff.1 h
    rw [flatMap_cons, mem_append] at hr
    rcases hr with hr | hr
    · exact ⟨mem_of_mem_take hr, hvalid r hr⟩
    obtain ⟨hbey, hread⟩ := ih hmore hr
    rw [beyond_some hc] at hbey
    exact ⟨(mem_filter.1 hbey).1, hread⟩

theorem head_mem_of_follow_askPage
    (h : follow (askPage limit key valid rows) Page.next fuel cursor = some pages)
    (hr : (beyond key rows cursor).head? = some r) : r ∈ pages.flatMap Page.items := by
  cases fuel with
  | zero => cases h
  | succ fuel =>
    rw [follow] at h
    obtain ⟨page, hpage, h⟩ := bind_eq_some_iff.1 h
    rcases askPage_cases hpos hpage with ⟨-, rfl, -⟩ | ⟨c, -, hc, rfl, -⟩
    · obtain rfl := Option.some.inj h
      rw [flatMap_singleton]
      exact mem_of_mem_head? hr
    obtain ⟨more, -, rfl⟩ := map_eq_some_iff.1 h
    rw [flatMap_cons, mem_append]
    left
    apply mem_of_mem_head?
    rw [head?_take, if_neg (by omega)]
    exact hr

/-- Where the keys agree with the order, the pages are the rows one after the other. -/
theorem follow_askPage_eq (h : follow (askPage limit key valid rows) Page.next fuel cursor = some pages)
    (hsep : Separated limit key (beyond key rows cursor)) :
    pages.flatMap Page.items = beyond key rows cursor := by
  induction fuel generalizing cursor pages with
  | zero => cases h
  | succ fuel ih =>
    rw [follow] at h
    obtain ⟨page, hpage, h⟩ := bind_eq_some_iff.1 h
    rcases askPage_cases hpos hpage with ⟨-, rfl, -⟩ | ⟨c, hlt, hc, rfl, -⟩
    · obtain rfl := Option.some.inj h
      rw [flatMap_singleton]
    obtain ⟨more, hmore, rfl⟩ := map_eq_some_iff.1 h
    obtain ⟨hcut, hoth⟩ := (separated_iff hpos hlt).1 hsep
    have hnext : beyond key rows (some (key c)) = (beyond key rows cursor).drop limit := by
      rw [beyond_some hc, filter_eq_drop_of_cut hc hcut]
    rw [flatMap_cons, ih hmore (hnext ▸ hoth), hnext, take_append_drop]

/-- Pages that have every row once can only be of keys that agree with the order: a row that comes later and
has a smaller key is on no page, and one that comes earlier and has a greater key is on two. -/
theorem separated_of_follow_perm (hnodup : rows.Nodup)
    (h : follow (askPage limit key valid rows) Page.next fuel cursor = some pages)
    (hperm : (pages.flatMap Page.items).Perm (beyond key rows cursor)) :
    Separated limit key (beyond key rows cursor) := by
  induction fuel generalizing cursor pages with
  | zero => cases h
  | succ fuel ih =>
    rw [follow] at h
    obtain ⟨page, hpage, h⟩ := bind_eq_some_iff.1 h
    rcases askPage_cases hpos hpage with ⟨hle, -, -⟩ | ⟨c, hlt, hc, rfl, -⟩
    · exact separated_of_length_le hle
    obtain ⟨more, hmore, rfl⟩ := map_eq_some_iff.1 h
    have hnod' : ((beyond key rows cursor).take limit ++ (beyond key rows cursor).drop limit).Nodup := by
      rw [take_append_drop]
      exact hnodup.filter _
    have hlater : (more.flatMap Page.items).Perm ((beyond key rows cursor).drop limit) := by
      rw [flatMap_cons] at hperm
      nth_rewrite 2 [← take_append_drop limit (beyond key rows cursor)] at hperm
      exact (perm_append_left_iff _).1 hperm
    have hafter : ∀ r ∈ (beyond key rows cursor).drop limit, key c < key r := by
      intro r hr
      have hbey := (mem_of_follow_askPage hpos hmore (hlater.mem_iff.2 hr)).1
      rw [beyond_some hc] at hbey
      simpa using (mem_filter.1 hbey).2
    have hbef : ((beyond key rows cursor).take limit).filter (fun r => key c < key r) = [] := by
      by_contra hne
      obtain ⟨r, hr⟩ := ne_none_iff_exists'.1 (mt head?_eq_none_iff.1 hne)
      have hhead : (beyond key rows (some (key c))).head? = some r := by
        have hsplit : (beyond key rows cursor).filter (fun r => key c < key r) =
            ((beyond key rows cursor).take limit).filter (fun r => key c < key r) ++
              ((beyond key rows cursor).drop limit).filter (fun r => key c < key r) := by
          rw [← filter_append, take_append_drop]
        rw [beyond_some hc, hsplit, head?_append, hr]
        rfl
      have htwice := hlater.mem_iff.1 (head_mem_of_follow_askPage hpos hmore hhead)
      have hfirst : r ∈ (beyond key rows cursor).take limit :=
        (mem_filter.1 (mem_of_mem_head? hr)).1
      exact disjoint_of_nodup_append hnod' hfirst htwice
    have hcut : Cut key (beyond key rows cursor) limit := by
      intro d hd
      obtain rfl : c = d := Option.some.inj (hc.symm.trans hd)
      refine ⟨fun r hr => ?_, hafter⟩
      rw [filter_eq_nil_iff] at hbef
      simpa using hbef r hr
    have hnext : beyond key rows (some (key c)) = (beyond key rows cursor).drop limit := by
      rw [beyond_some hc, filter_eq_drop_of_cut hc hcut]
    refine (separated_iff hpos hlt).2 ⟨hcut, ?_⟩
    rw [← hnext]
    exact ih hmore (hnext ▸ hlater)

end

end CursorPages

end Reasoning
