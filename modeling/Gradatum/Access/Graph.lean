import Gradatum.Access.Listing

/-!
# Links between notes

`vault_graph`, `vault_links` and `vault_trace` answer with the ids of the notes around a note.  An id tells
that a note exists, so it is to be withheld from the callers who may not see the note.
-/

open Reasoning

namespace Gradatum.Access

open Notes List

/-! ## 1. The index -/

structure TitledRecord extends NoteRecord where
  title : Option String

structure NoteLink where
  srcNoteId : String
  dstNoteId : String
  vaultId : VaultId
  createdAt : Int

/-- What the three handlers read, and what they take from outside. -/
structure GraphApi where
  policy : Policy
  notes : Table fun r : TitledRecord => (r.vaultId, r.id)
  links : Table fun l : NoteLink => (l.srcNoteId, l.dstNoteId, l.vaultId)
  /-- `Ulid::from_string`. -/
  parseUlid : String → Option NoteId
  /-- `resolve_redirect` for the slug of a reference. -/
  redirects : VaultId → String → Option NoteId
  /-- `char::is_alphanumeric`. -/
  isAlphanumeric : Char → Bool
  /-- The full-text search, and the rank of what it finds. -/
  ftsMatches : String → TitledRecord → Bool
  ftsRank : String → TitledRecord → Int
  /-- The order in which the tasks of the seeds end. -/
  joinOrder : List String → List String
  joinOrder_perm : ∀ seeds, (joinOrder seeds).Perm seeds

def dedupAdjacent {α : Type} [DecidableEq α] : List α → List α
  | [] => []
  | [a] => [a]
  | a :: b :: rest => if a = b then dedupAdjacent (b :: rest) else a :: dedupAdjacent (b :: rest)

def sortDedup (ids : List String) : List String := dedupAdjacent (ids.mergeSort (· ≤ ·))

namespace GraphApi

variable (api : GraphApi)

/-- The note of the vault with this id; sentinels are no notes. -/
def noteAt (vault : VaultId) (id : String) : Option TitledRecord :=
  if isSentinel id then none else api.notes.rows.find? fun r => r.vaultId = vault && r.id = id

/-- `ORDER BY created DESC LIMIT 1`. -/
def newestNote (vault : VaultId) (cond : TitledRecord → Bool) : Option String :=
  (((api.notes.select fun r => r.vaultId = vault && !isSentinel r.id && r.status = .of .live &&
    cond r).mergeSort fun a b => b.created ≤ a.created).head?).map (·.id)

/-- The title column comes first, the heading of the body second. -/
def titleLookup (vault : VaultId) (title : String) : Option String :=
  (api.newestNote vault fun r => r.title = some title).or
    (api.newestNote vault fun r =>
      likeStart s!"# {title}\n" r.bodyText || r.bodyText = "# " ++ escapeLikePattern title)

def resolveNoteRef (tenant : VaultId) (reference : String) : String :=
  let candidate := lastSegment reference
  if (api.parseUlid candidate).isSome then candidate
  else ((api.titleLookup tenant reference).or
    ((api.redirects tenant reference).map ulidText)).getD candidate

def linkTargets (vault : VaultId) (id : String) : List String :=
  (api.links.select fun l => l.srcNoteId = id && l.vaultId = vault).map (·.dstNoteId)

/-- The rows of the recursive query, level by level; `UNION` drops what a level has twice. -/
def levels (vault : VaultId) : Nat → List String → List String
  | 0, frontier => frontier
  | n + 1, frontier => frontier ++ levels vault n (frontier.flatMap (api.linkTargets vault)).eraseDups

def neighbors (vault : VaultId) (id : String) (depth : Nat) : List String :=
  (api.levels vault (min depth 3) [id]).eraseDups.filter (· ≠ id)

def linksByAge (cond : NoteLink → Bool) : List NoteLink :=
  (api.links.select cond).mergeSort fun a b => b.createdAt ≤ a.createdAt

def backlinks (vault : VaultId) (id : String) : List String :=
  (api.linksByAge fun l => l.dstNoteId = id && l.vaultId = vault).map (·.srcNoteId)

def traceLineage (vault : VaultId) (id : String) : List String :=
  api.backlinks vault id ++
    (api.linksByAge fun l => l.srcNoteId = id && l.vaultId = vault).map (·.dstNoteId)

end GraphApi

/-! ## 2. Graphs -/

structure GraphEdge where
  «from» : String
  «to» : String
  kind : String
  deriving DecidableEq

structure NoteGraph where
  nodes : List String
  edges : List GraphEdge
  deriving DecidableEq

def NoteGraph.ids (g : NoteGraph) : List String :=
  g.nodes ++ g.edges.flatMap fun e => [e.from, e.to]

def NoteGraph.without (g : NoteGraph) (hidden : List String) : NoteGraph where
  nodes := g.nodes.filter fun id => !hidden.contains id
  edges := g.edges.filter fun e => !hidden.contains e.from && !hidden.contains e.to

def NoteGraph.addBacklinks (g : NoteGraph) (root : String) (backlinks : List String) : NoteGraph where
  nodes := backlinks.foldl (fun nodes bl => if nodes.contains bl then nodes else nodes ++ [bl]) g.nodes
  edges := g.edges ++ backlinks.map fun bl => ⟨bl, root, "wikilink"⟩

namespace GraphApi

variable (api : GraphApi) (trust : TrustContext)

def filterIdentityNodes (tenant : VaultId) (g : NoteGraph) : NoteGraph :=
  let privileged := isIdentityPrivileged trust
  if privileged then g
  else
    g.without (g.nodes.filter fun id =>
      (api.noteAt tenant id).any fun r => identitySectionHidden privileged r.section)

def hiddenIds (vault : VaultId) (ids : List String) : List String :=
  ids.filter fun id => (api.noteAt vault id).any fun r => api.policy.hidesTags trust vault r.tagsRaw

def filterPrivacyNodes (tenant : VaultId) (g : NoteGraph) : NoteGraph :=
  g.without (api.hiddenIds trust tenant g.nodes)

/-! ## 3. Requests -/

def admitGraphRead (bodyTenant : Option VaultId) : Except ApiError VaultId := do
  require trust.isAuthenticated .unauthorized
  let tenant ← (effectiveTenant trust bodyTenant).mapError fun _ => .forbidden "tenant cross mismatch"
  require (api.policy.acl trust .read s!"{tenant}/main") (.forbidden "acl deny")
  return tenant

end GraphApi

structure VaultGraphRequest where
  tenantId : Option VaultId
  root : String
  depth : Option Nat
  includeBacklinks : Option Bool

structure VaultLinksRequest where
  tenantId : Option VaultId
  path : String
  includeBacklinks : Option Bool

structure VaultTraceRequest where
  tenantId : Option VaultId
  query : String
  limit : Option Nat

structure TraceEntry where
  path : String
  score : Rat := 1
  snippet : Option String := none
  tags : List String := []
  deriving DecidableEq

namespace GraphApi

variable (api : GraphApi) (trust : TrustContext)

def vaultGraph (req : VaultGraphRequest) : Except ApiError NoteGraph := do
  let tenant ← api.admitGraphRead trust req.tenantId
  let root := api.resolveNoteRef tenant req.root
  let rawDepth := req.depth.getD 2
  require (rawDepth ≤ 5) (.invalidInput "depth > 5 rejected (effective max = 3)")
  let neighbors := api.neighbors tenant root (min rawDepth 3)
  let outbound : NoteGraph :=
    ⟨sortDedup (neighbors ++ [root]), neighbors.map fun n => ⟨root, n, "wikilink"⟩⟩
  let graph :=
    if req.includeBacklinks.getD false then
      let both := outbound.addBacklinks root (api.backlinks tenant root)
      { both with nodes := sortDedup both.nodes }
    else outbound
  return api.filterPrivacyNodes trust tenant (api.filterIdentityNodes trust tenant graph)

def vaultLinks (req : VaultLinksRequest) : Except ApiError NoteGraph := do
  let tenant ← api.admitGraphRead trust req.tenantId
  let path := api.resolveNoteRef tenant req.path
  let outbound := api.neighbors tenant path 1
  let graph : NoteGraph := ⟨outbound ++ [path], outbound.map fun n => ⟨path, n, "wikilink"⟩⟩
  let graph :=
    if req.includeBacklinks.getD true then graph.addBacklinks path (api.backlinks tenant path)
    else graph
  return api.filterPrivacyNodes trust tenant
    (api.filterIdentityNodes trust tenant { graph with nodes := sortDedup graph.nodes })

/-- Bare, or as a phrase if it could be taken for an operator. -/
def quoteFtsToken (token : String) : String :=
  let isKeyword := ["AND", "OR", "NOT", "NEAR"].contains (token.map Char.toUpper)
  if !isKeyword && token.toList.all (fun c => api.isAlphanumeric c || c = '_') then token
  else
    let escaped := token.toList.flatMap fun c => if c = '\"' || c = '\'' then [c, c] else [c]
    String.ofList (['\"'] ++ escaped ++ ['\"'])

def buildFtsQuery (query : String) : String :=
  " ".intercalate ((splitWhitespace query).map api.quoteFtsToken)

/-- The notes that the search ranks first.  The decay of the scores changes the order of these alone. -/
def searchFts (vault : VaultId) (ftsQuery : String) (limit : Nat) : Except ApiError (List String) :=
  let rows := ((api.notes.select fun r => r.vaultId = vault && r.status ≠ .downgraded &&
    api.ftsMatches ftsQuery r).mergeSort fun a b => api.ftsRank ftsQuery a ≤ api.ftsRank ftsQuery b).take
      limit
  rows.mapM fun r =>
    match api.parseUlid r.id with
    | some id => .ok (ulidText id)
    | none => .error (.storage "ULID parse search_fts_with_snippet")

def traceSeeds (tenant : VaultId) (query : String) (limit : Nat) : Except ApiError (List String) :=
  if (api.parseUlid query).isSome then .ok [query]
  else
    match api.titleLookup tenant query with
    | some id => .ok [id]
    | none =>
      let ftsQuery := api.buildFtsQuery query
      if ftsQuery.toList.all fun c => c = '\"' || c = ' ' then .ok []
      else api.searchFts tenant ftsQuery (min limit 5)

def guardSeed (tenant : VaultId) (seed : String) : Except ApiError Unit :=
  let key := ((api.noteAt tenant seed).map fun r => (r.title, r.section)).getD (none, "")
  enforceIdentityReadGuard trust key.2 key.1

/-- The notes around the seeds, each once, as many as were asked for. -/
def tracedIds (tenant : VaultId) (seeds : List String) (limit : Nat) : List String :=
  ((api.joinOrder seeds).flatMap (api.traceLineage tenant)).eraseDups.take limit

def vaultTrace (req : VaultTraceRequest) : Except ApiError (List TraceEntry) := do
  let tenant ← api.admitGraphRead trust req.tenantId
  let limit := max 1 (min (req.limit.getD 20) 200)
  let seeds ← api.traceSeeds tenant req.query limit
  seeds.forM (api.guardSeed trust tenant)
  let ids := api.tracedIds tenant seeds limit
  let hidden := api.hiddenIds trust tenant ids
  return (ids.filter fun id => !hidden.contains id).map fun id => { path := id }

/-! ## 4. What the answers are to withhold -/

end GraphApi

inductive GraphRequest where
  | graph (req : VaultGraphRequest)
  | links (req : VaultLinksRequest)
  | trace (req : VaultTraceRequest)

namespace GraphApi

variable (api : GraphApi) (trust : TrustContext)

def respond : GraphRequest → Except ApiError (List String)
  | .graph req => (api.vaultGraph trust req).map NoteGraph.ids
  | .links req => (api.vaultLinks trust req).map NoteGraph.ids
  | .trace req => (api.vaultTrace trust req).map (·.map TraceEntry.path)

variable (tenant : VaultId)

/-- The note that the caller named itself; what a full-text search finds was not named. -/
def named : GraphRequest → List String
  | .graph req => [api.resolveNoteRef tenant req.root]
  | .links req => [api.resolveNoteRef tenant req.path]
  | .trace req =>
    if (api.parseUlid req.query).isSome then [req.query]
    else (api.titleLookup tenant req.query).toList

def isSoul (id : String) : Bool :=
  (api.noteAt tenant id).any fun r => r.section = Section.identity.asStr

def hidesClassified (id : String) : Bool :=
  (api.noteAt tenant id).any fun r => api.policy.hidesTags trust tenant r.tagsRaw

def hides (id : String) : Bool :=
  (!isIdentityPrivileged trust && api.isSoul tenant id) || api.hidesClassified trust tenant id

def Discreet (request : GraphRequest) (ids : List String) : Prop :=
  ∀ id ∈ ids, id ∉ api.named tenant request → api.hides trust tenant id = false

/-- No soul is linked with the seeds of a trace, among the notes that it is cut down to and that are not
withheld for their tags. -/
def TracesNoSoul (req : VaultTraceRequest) : Prop :=
  let limit := max 1 (min (req.limit.getD 20) 200)
  ∀ seeds, api.traceSeeds tenant req.query limit = .ok seeds →
    ∀ id ∈ api.tracedIds tenant seeds limit, api.hidesClassified trust tenant id = false →
      id ∉ api.named tenant (.trace req) → api.isSoul tenant id = false

end GraphApi

/-! ## 5. Filtering a graph -/

section Lists

theorem mem_dedupAdjacent [DecidableEq α] (l : List α) (x : α) : x ∈ dedupAdjacent l ↔ x ∈ l := by
  fun_induction dedupAdjacent l with
  | case1 => rfl
  | case2 a => rfl
  | case3 a rest ih =>
    rw [ih]
    simp
  | case4 a b rest hne ih => rw [mem_cons, ih, ← mem_cons]

theorem mem_sortDedup (ids : List String) (id : String) : id ∈ sortDedup ids ↔ id ∈ ids := by
  rw [sortDedup, mem_dedupAdjacent, mem_mergeSort]

end Lists

namespace NoteGraph

def Closed (g : NoteGraph) : Prop := ∀ e ∈ g.edges, e.from ∈ g.nodes ∧ e.to ∈ g.nodes

variable {g : NoteGraph} {id : String}

theorem Closed.mem_nodes (hg : g.Closed) (h : id ∈ g.ids) : id ∈ g.nodes := by
  unfold ids at h
  rw [mem_append, mem_flatMap] at h
  rcases h with hnode | ⟨e, he, hend⟩
  · exact hnode
  have hends := hg e he
  rw [mem_pair] at hend
  rcases hend with rfl | rfl
  · exact hends.1
  · exact hends.2

theorem mem_nodes_without {hidden : List String} :
    id ∈ (g.without hidden).nodes ↔ id ∈ g.nodes ∧ id ∉ hidden := by
  simp [without]

theorem Closed.without (hg : g.Closed) (hidden : List String) : (g.without hidden).Closed := by
  intro e he
  simp only [NoteGraph.without, mem_filter, Bool.and_eq_true, Bool.not_eq_true',
    contains_eq_mem, decide_eq_false_iff_not] at he
  obtain ⟨he, hfrom, hto⟩ := he
  obtain ⟨hsrc, hdst⟩ := hg e he
  exact ⟨mem_nodes_without.2 ⟨hsrc, hfrom⟩, mem_nodes_without.2 ⟨hdst, hto⟩⟩

theorem Closed.sorted (hg : g.Closed) : Closed { g with nodes := sortDedup g.nodes } := by
  intro e he
  exact ⟨(mem_sortDedup _ _).2 (hg e he).1, (mem_sortDedup _ _).2 (hg e he).2⟩

theorem mem_foldl_insert (backlinks nodes : List String) (id : String) :
    id ∈ backlinks.foldl (fun nodes bl => if nodes.contains bl then nodes else nodes ++ [bl]) nodes ↔
      id ∈ nodes ∨ id ∈ backlinks := by
  induction backlinks generalizing nodes with
  | nil => simp
  | cons bl rest ih =>
    rw [foldl_cons, ih, mem_cons]
    by_cases hbl : bl ∈ nodes
    · rw [if_pos (by simpa using hbl)]
      constructor
      · intro h
        exact h.imp_right .inr
      rintro (hid | rfl | hid)
      · exact .inl hid
      · exact .inl hbl
      · exact .inr hid
    · rw [if_neg (by simpa using hbl), mem_append, mem_singleton, or_assoc]

theorem Closed.addBacklinks (hg : g.Closed) (hroot : root ∈ g.nodes)
    (backlinks : List String) : (g.addBacklinks root backlinks).Closed := by
  intro e he
  unfold NoteGraph.addBacklinks at he ⊢
  simp only [mem_append, mem_map, mem_foldl_insert] at he ⊢
  rcases he with he | ⟨bl, hbl, rfl⟩
  · exact ⟨.inl (hg e he).1, .inl (hg e he).2⟩
  · exact ⟨.inr hbl, .inl hroot⟩

theorem closed_star (root : String) (neighbors : List String) :
    Closed ⟨neighbors ++ [root], neighbors.map fun n => ⟨root, n, "wikilink"⟩⟩ := by
  intro e he
  obtain ⟨n, hn, rfl⟩ := mem_map.1 he
  exact ⟨mem_append_right _ (mem_singleton_self root), mem_append_left _ hn⟩

end NoteGraph

/-! ## 6. The three answers -/

namespace GraphApi

variable {api : GraphApi} {trust : TrustContext} {tenant : VaultId} {ids : List String}

theorem admitGraphRead_ok (htenant : trust.tenantId = some tenant)
    (h : api.admitGraphRead trust bodyTenant = .ok found) : found = tenant := by
  simp only [admitGraphRead, bind_eq_ok_iff, mapError_eq_ok_iff, pure_eq_ok_iff] at h
  obtain ⟨_, _, found', hfound, _, _, rfl⟩ := h
  exact Option.some.inj ((effectiveTenant_ok hfound).symm.trans htenant)

variable {g : NoteGraph} {id : String}

theorem closed_filterIdentityNodes (hg : g.Closed) : (api.filterIdentityNodes trust tenant g).Closed := by
  unfold filterIdentityNodes
  dsimp only
  split
  · exact hg
  · exact hg.without _

theorem mem_filterIdentityNodes (h : id ∈ (api.filterIdentityNodes trust tenant g).nodes) :
    (!isIdentityPrivileged trust && api.isSoul tenant id) = false := by
  unfold filterIdentityNodes at h
  cases hprivileged : isIdentityPrivileged trust with
  | true => rfl
  | false =>
    simp only [hprivileged, Bool.false_eq_true, if_false, NoteGraph.mem_nodes_without,
      mem_filter, not_and] at h
    obtain ⟨hmem, hkept⟩ := h
    -- a soul is one of the notes whose section hides them
    rw [Bool.not_false, Bool.true_and, isSoul, Bool.eq_false_iff]
    intro hsoul
    apply hkept hmem
    rw [Option.any_eq_true] at hsoul ⊢
    obtain ⟨r, hr, hsection⟩ := hsoul
    exact ⟨r, hr, by simp [identitySectionHidden, of_decide_eq_true hsection]⟩

theorem hides_of_mem_filtered (hg : g.Closed)
    (h : id ∈ (api.filterPrivacyNodes trust tenant (api.filterIdentityNodes trust tenant g)).ids) :
    api.hides trust tenant id = false := by
  have hclosed : (api.filterIdentityNodes trust tenant g).Closed := closed_filterIdentityNodes hg
  have hnode := (hclosed.without _).mem_nodes h
  obtain ⟨hmem, hkept⟩ := NoteGraph.mem_nodes_without.1 hnode
  have hclassified : api.hidesClassified trust tenant id = false := by
    rw [Bool.eq_false_iff]
    intro hhidden
    exact hkept (mem_filter.2 ⟨hmem, hhidden⟩)
  rw [hides, mem_filterIdentityNodes hmem, hclassified]
  rfl

section

variable (htenant : trust.tenantId = some tenant)

include htenant

theorem hides_of_vaultGraph (h : api.vaultGraph trust req = .ok g)
    (hid : id ∈ g.ids) : api.hides trust tenant id = false := by
  simp only [vaultGraph, bind_eq_ok_iff, pure_eq_ok_iff] at h
  obtain ⟨found, hfound, _, _, rfl⟩ := h
  cases admitGraphRead_ok htenant hfound
  refine hides_of_mem_filtered ?_ hid
  generalize api.resolveNoteRef tenant req.root = root
  generalize api.neighbors tenant root _ = neighbors
  have hstar := (NoteGraph.closed_star root neighbors).sorted
  split
  · refine (hstar.addBacklinks ?_ (api.backlinks tenant root)).sorted
    exact (mem_sortDedup _ root).2 (mem_append_right _ (mem_singleton_self root))
  · exact hstar

theorem hides_of_vaultLinks (h : api.vaultLinks trust req = .ok g)
    (hid : id ∈ g.ids) : api.hides trust tenant id = false := by
  simp only [vaultLinks, bind_eq_ok_iff, pure_eq_ok_iff] at h
  obtain ⟨found, hfound, rfl⟩ := h
  cases admitGraphRead_ok htenant hfound
  refine hides_of_mem_filtered ?_ hid
  generalize api.resolveNoteRef tenant req.path = path
  generalize api.neighbors tenant path 1 = neighbors
  have hstar := NoteGraph.closed_star path neighbors
  apply NoteGraph.Closed.sorted
  split
  · exact hstar.addBacklinks (mem_append_right _ (mem_singleton_self path)) _
  · exact hstar

theorem mem_vaultTrace (h : api.vaultTrace trust req = .ok entries) :
    ∃ seeds, api.traceSeeds tenant req.query (max 1 (min (req.limit.getD 20) 200)) = .ok seeds ∧
      ∀ id, id ∈ entries.map TraceEntry.path ↔
        id ∈ api.tracedIds tenant seeds (max 1 (min (req.limit.getD 20) 200)) ∧
          api.hidesClassified trust tenant id = false := by
  simp only [vaultTrace, bind_eq_ok_iff, pure_eq_ok_iff] at h
  obtain ⟨found, hfound, seeds, hseeds, _, _, rfl⟩ := h
  cases admitGraphRead_ok htenant hfound
  refine ⟨seeds, hseeds, fun id => ?_⟩
  generalize api.tracedIds tenant seeds (max 1 (min (req.limit.getD 20) 200)) = traced
  have hpath : (TraceEntry.path ∘ fun id => { path := id }) = fun id => id := rfl
  rw [map_map, hpath, map_id', mem_filter]
  -- what the guard hides is taken out of the list that it was asked for
  have hhidden : id ∈ traced → ((!(api.hiddenIds trust tenant traced).contains id) = true ↔
      api.hidesClassified trust tenant id = false) := by
    intro hid
    simp [hiddenIds, hidesClassified, hid]
  exact and_congr_right hhidden

end

/-- An answer of `vault_graph` or of `vault_links` names no hidden note, and one of `vault_trace` names
none just if the caller is privileged or no soul is linked with the seeds. -/
theorem discreet_iff_tracesNoSoul (api : GraphApi) (trust : TrustContext) (tenant : VaultId)
    (request : GraphRequest) (ids : List String) (htenant : trust.tenantId = some tenant)
    (h : api.respond trust request = .ok ids) : api.Discreet trust tenant request ids ↔
      ∀ req, request = .trace req →
        isIdentityPrivileged trust = true ∨ api.TracesNoSoul trust tenant req := by
  cases request with
  | graph req =>
    obtain ⟨g, hg, rfl⟩ := map_eq_ok_iff.1 h
    refine iff_of_true (fun id hid _ => hides_of_vaultGraph htenant hg hid) ?_
    intro req' hreq
    cases hreq
  | links req =>
    obtain ⟨g, hg, rfl⟩ := map_eq_ok_iff.1 h
    refine iff_of_true (fun id hid _ => hides_of_vaultLinks htenant hg hid) ?_
    intro req' hreq
    cases hreq
  | trace req =>
    obtain ⟨entries, hentries, rfl⟩ := map_eq_ok_iff.1 h
    obtain ⟨seeds, hseeds, hmem⟩ := mem_vaultTrace htenant hentries
    constructor
    · intro hdiscreet req' hreq
      cases hreq
      cases hprivileged : isIdentityPrivileged trust with
      | true => exact .inl rfl
      | false =>
        right
        intro seeds' hseeds' id hid hclassified hnamed
        cases hseeds.symm.trans hseeds'
        have hhides := hdiscreet id ((hmem id).2 ⟨hid, hclassified⟩) hnamed
        simpa [hides, hprivileged, hclassified] using hhides
    · intro hcond id hid hnamed
      obtain ⟨htraced, hclassified⟩ := (hmem id).1 hid
      rw [hides, hclassified, Bool.or_false]
      rcases hcond req rfl with hprivileged | hsouls
      · rw [hprivileged]
        rfl
      · rw [hsouls seeds hseeds id htraced hclassified hnamed, Bool.and_false]

/-- A note `A` that links to a note `B` of this section, in the vault `main`. -/
def linkedPair (sec : String) : GraphApi where
  policy := plainPolicy
  notes :=
    { rows :=
        [⟨⟨"A", "main", "debug", .of .live, "text", none, 0, none, none, none, by decide⟩, none⟩,
          ⟨⟨"B", "main", sec, .of .live, "text", none, 0, none, none, none, by decide⟩,
            some "identity/bob"⟩]
      nodup := by simp }
  links := ⟨[⟨"A", "B", "main", 0⟩], by decide⟩
  parseUlid := fun text => if text = "A" then some 1 else none
  redirects := fun _ _ => none
  isAlphanumeric := Char.isAlphanum
  ftsMatches := fun _ _ => false
  ftsRank := fun _ _ => 0
  joinOrder := fun seeds => seeds
  joinOrder_perm := fun seeds => .refl seeds

def traceA : GraphRequest := .trace ⟨none, "A", none⟩

theorem discreet_linkedPair_debug : (linkedPair "debug").respond (bearerOf "main") traceA = .ok ["B"] ∧
      (linkedPair "debug").Discreet (bearerOf "main") "main" traceA ["B"] := by
  have hreply : (linkedPair "debug").respond (bearerOf "main") traceA = .ok ["B"] := by
    decide +kernel
  refine ⟨hreply, ?_⟩
  apply (discreet_iff_tracesNoSoul (linkedPair "debug") (bearerOf "main") "main" traceA ["B"] rfl
    hreply).2
  intro req hreq
  cases hreq
  right
  intro seeds hseeds id hid _ _
  cases hseeds
  have htraced : (linkedPair "debug").tracedIds "main" ["A"] 20 = ["B"] := by decide +kernel
  have hB : id ∈ ["B"] := htraced ▸ hid
  cases mem_singleton.1 hB
  decide +kernel

/-- The agent `scribe` asks for the notes around `A` and is told the id of the soul of `bob`. -/
theorem not_discreet_linkedPair_identity :
    ∃ ids, (linkedPair "identity").respond (bearerOf "main") traceA = .ok ids ∧
      ¬ (linkedPair "identity").Discreet (bearerOf "main") "main" traceA ids := by
  refine ⟨["B"], by decide +kernel, ?_⟩
  intro hdiscreet
  have hB := hdiscreet "B" mem_cons_self (by decide +kernel)
  exact absurd hB (by decide +kernel)

/-! ## 7. Which edges a graph has -/

section Subgraph

variable (api : GraphApi) (vault : VaultId)

def Joins (a b : String) : Prop :=
  ∃ l ∈ api.links.rows, l.srcNoteId = a ∧ l.dstNoteId = b ∧ l.vaultId = vault

inductive Within : Nat → String → String → Prop
  | refl (n : Nat) (a : String) : Within n a a
  | step {n : Nat} {a b c : String} (hlink : api.Joins vault a b) (hrest : Within n b c) :
      Within (n + 1) a c

structure IsSubgraph (root : String) (depth : Nat) (withBacklinks : Bool) (g : NoteGraph) : Prop where
  edges : ∀ e ∈ g.edges, api.Joins vault e.from e.to
  nodes : ∀ id, id ∈ g.nodes ↔
    id = root ∨ api.Within vault depth root id ∨ withBacklinks = true ∧ api.Joins vault id root

variable {api vault}

theorem mem_linkTargets : b ∈ api.linkTargets vault a ↔ api.Joins vault a b := by
  simp only [linkTargets, Table.select, mem_map, mem_filter, Bool.and_eq_true, decide_eq_true_eq,
    Joins]
  constructor
  · rintro ⟨l, ⟨hl, hsrc, hvault⟩, hdst⟩
    exact ⟨l, hl, hsrc, hdst, hvault⟩
  · rintro ⟨l, hl, hsrc, hdst, hvault⟩
    exact ⟨l, ⟨hl, hsrc, hvault⟩, hdst⟩

theorem mem_backlinks : a ∈ api.backlinks vault root ↔ api.Joins vault a root := by
  simp only [backlinks, linksByAge, Table.select, mem_map, mem_mergeSort, mem_filter,
    Bool.and_eq_true, decide_eq_true_eq, Joins]
  constructor
  · rintro ⟨l, ⟨hl, hdst, hvault⟩, hsrc⟩
    exact ⟨l, hl, hsrc, hdst, hvault⟩
  · rintro ⟨l, hl, hsrc, hdst, hvault⟩
    exact ⟨l, ⟨hl, hdst, hvault⟩, hsrc⟩

theorem mem_levels {frontier : List String} :
    id ∈ api.levels vault n frontier ↔ ∃ a ∈ frontier, api.Within vault n a id := by
  induction n generalizing frontier with
  | zero =>
    rw [levels]
    constructor
    · intro h
      exact ⟨id, h, .refl 0 id⟩
    rintro ⟨a, ha, hwithin⟩
    cases hwithin
    exact ha
  | succ n ih =>
    rw [levels, mem_append, ih]
    simp only [mem_eraseDups, mem_flatMap, mem_linkTargets]
    constructor
    · rintro (h | ⟨b, ⟨a, ha, hlink⟩, hwithin⟩)
      · exact ⟨id, h, .refl _ id⟩
      · exact ⟨a, ha, .step hlink hwithin⟩
    rintro ⟨a, ha, hwithin⟩
    cases hwithin with
    | refl => exact .inl ha
    | step hlink hrest => exact .inr ⟨_, ⟨a, ha, hlink⟩, hrest⟩

theorem mem_neighbors :
    id ∈ api.neighbors vault root depth ↔ api.Within vault (min depth 3) root id ∧ id ≠ root := by
  simp only [neighbors, mem_filter, mem_eraseDups, mem_levels, mem_singleton,
    exists_eq_left, decide_eq_true_eq]

end Subgraph

def SeesAll (api : GraphApi) (trust : TrustContext) (tenant : VaultId) : Prop :=
  ∀ id, ∀ r ∈ api.noteAt tenant id, identitySectionHidden (isIdentityPrivileged trust) r.section = false ∧
    api.policy.hidesTags trust tenant r.tagsRaw = false

theorem SeesAll.filterNodes_eq (hseen : api.SeesAll trust tenant) (g : NoteGraph) :
    api.filterPrivacyNodes trust tenant (api.filterIdentityNodes trust tenant g) = g := by
  have hnone : ∀ {hidden : String → Bool}, (∀ id, hidden id = false) → g.without (g.nodes.filter hidden) = g := by
    intro hidden hfalse
    simp [NoteGraph.without, hfalse]
  have hany : ∀ {cond : TitledRecord → Bool}, (∀ id, ∀ r ∈ api.noteAt tenant id, cond r = false) →
      ∀ id, (api.noteAt tenant id).any cond = false := by
    intro cond hcond id
    rw [Bool.eq_false_iff, ne_eq, Option.any_eq_true]
    rintro ⟨r, hr, htrue⟩
    exact Bool.false_ne_true ((hcond id r hr).symm.trans htrue)
  have hsouls : api.filterIdentityNodes trust tenant g = g := by
    unfold filterIdentityNodes
    dsimp only
    split
    · rfl
    · exact hnone (hany fun id r hr => (hseen id r hr).1)
  rw [hsouls]
  exact hnone (hany fun id r hr => (hseen id r hr).2)

/-- Every note that is found is shown as a target of the root, also one that is found over another note. -/
theorem isSubgraph_vaultGraph_iff {req : VaultGraphRequest} {g : NoteGraph}
    (htenant : trust.tenantId = some tenant) (hseen : api.SeesAll trust tenant)
    (h : api.vaultGraph trust req = .ok g) :
    api.IsSubgraph tenant (api.resolveNoteRef tenant req.root) (min (req.depth.getD 2) 3)
        (req.includeBacklinks.getD false) g ↔
      ∀ id, api.Within tenant (min (req.depth.getD 2) 3) (api.resolveNoteRef tenant req.root) id →
        id ≠ api.resolveNoteRef tenant req.root →
          api.Joins tenant (api.resolveNoteRef tenant req.root) id := by
  simp only [vaultGraph, bind_eq_ok_iff, pure_eq_ok_iff] at h
  obtain ⟨found, hfound, _, _, rfl⟩ := h
  cases admitGraphRead_ok htenant hfound
  rw [hseen.filterNodes_eq]
  generalize api.resolveNoteRef tenant req.root = root
  have hneighbors : ∀ id, id ∈ api.neighbors tenant root (min (req.depth.getD 2) 3) ↔
      api.Within tenant (min (req.depth.getD 2) 3) root id ∧ id ≠ root := by
    intro id
    rw [mem_neighbors, Nat.min_assoc, Nat.min_self]
  generalize min (req.depth.getD 2) 3 = depth at hneighbors ⊢
  generalize api.neighbors tenant root depth = neighbors at hneighbors ⊢
  have hself : api.Within tenant depth root root := .refl depth root
  constructor
  · intro hsub id hwithin hne
    apply hsub.edges ⟨root, id, "wikilink"⟩
    have hmem : ⟨root, id, "wikilink"⟩ ∈ neighbors.map fun n => (⟨root, n, "wikilink"⟩ : GraphEdge) :=
      mem_map_of_mem ((hneighbors id).2 ⟨hwithin, hne⟩)
    split
    · exact mem_append_left _ hmem
    · exact hmem
  · intro hdirect
    have hout : ∀ e ∈ neighbors.map fun n => (⟨root, n, "wikilink"⟩ : GraphEdge),
        api.Joins tenant e.from e.to := by
      intro e he
      obtain ⟨id, hid, rfl⟩ := mem_map.1 he
      obtain ⟨hwithin, hne⟩ := (hneighbors id).1 hid
      exact hdirect id hwithin hne
    have hnodes : ∀ id, id ∈ neighbors ++ [root] ↔ id = root ∨ api.Within tenant depth root id := by
      intro id
      rw [mem_append, mem_singleton, hneighbors]
      by_cases hid : id = root
      · simp [hid, hself]
      · simp [hid]
    constructor
    · intro e he
      split at he
      · rcases mem_append.1 he with hmem | hmem
        · exact hout e hmem
        · obtain ⟨bl, hbl, rfl⟩ := mem_map.1 hmem
          exact mem_backlinks.1 hbl
      · exact hout e he
    · intro id
      split
      · rename_i hbacklinks
        rw [mem_sortDedup]
        simp only [NoteGraph.addBacklinks, NoteGraph.mem_foldl_insert, mem_sortDedup, hnodes, mem_backlinks,
          hbacklinks, true_and, or_assoc]
      · rename_i hbacklinks
        rw [mem_sortDedup, hnodes]
        simp [hbacklinks]

def linkedBy (links : Table fun l : NoteLink => (l.srcNoteId, l.dstNoteId, l.vaultId)) : GraphApi :=
  { linkedPair "debug" with links := links }

theorem seesAll_linkedBy (links : Table fun l : NoteLink => (l.srcNoteId, l.dstNoteId, l.vaultId)) :
    (linkedBy links).SeesAll (bearerOf "main") "main" := by
  intro id r hr
  have hmem : r ∈ (linkedPair "debug").notes.rows := by
    unfold noteAt at hr
    split at hr
    · cases hr
    · exact mem_of_find?_eq_some hr
  have hrows : ∀ r ∈ (linkedPair "debug").notes.rows,
      identitySectionHidden (isIdentityPrivileged (bearerOf "main")) r.section = false ∧
        plainPolicy.hidesTags (bearerOf "main") "main" r.tagsRaw = false := by
    decide +kernel
  exact hrows r hmem

theorem vaultGraph_linkedBy (links : Table fun l : NoteLink => (l.srcNoteId, l.dstNoteId, l.vaultId)) :
    (linkedBy links).vaultGraph (bearerOf "main") ⟨none, "A", none, none⟩ =
      .ok ⟨sortDedup ((linkedBy links).neighbors "main" "A" 2 ++ ["A"]),
        ((linkedBy links).neighbors "main" "A" 2).map fun n => ⟨"A", n, "wikilink"⟩⟩ :=
  congrArg Except.ok ((seesAll_linkedBy links).filterNodes_eq _)

theorem isSubgraph_linkedPair :
    let api := linkedBy ⟨[⟨"A", "B", "main", 0⟩], by decide⟩
    ∃ g, api.vaultGraph (bearerOf "main") ⟨none, "A", none, none⟩ = .ok g ∧
      api.IsSubgraph "main" "A" 2 false g := by
  intro api
  refine ⟨_, vaultGraph_linkedBy _, ?_⟩
  apply (isSubgraph_vaultGraph_iff rfl (seesAll_linkedBy _) (vaultGraph_linkedBy _)).2
  intro id hwithin hne
  have hmem : id ∈ api.neighbors "main" "A" 2 := mem_neighbors.2 ⟨hwithin, hne⟩
  have hone : api.neighbors "main" "A" 2 = api.linkTargets "main" "A" := by decide +kernel
  rw [hone] at hmem
  exact mem_linkTargets.1 hmem

/-- The graph of `A` has an edge to the status of `B`. -/
theorem not_isSubgraph_chain :
    let api := linkedBy ⟨[⟨"A", "B", "main", 0⟩, ⟨"B", "status:OPEN", "main", 0⟩], by decide⟩
    api.SeesAll (bearerOf "main") "main" ∧
      ∃ g, api.vaultGraph (bearerOf "main") ⟨none, "A", none, none⟩ = .ok g ∧
        ⟨"A", "status:OPEN", "wikilink"⟩ ∈ g.edges ∧ ¬ api.Joins "main" "A" "status:OPEN" := by
  refine ⟨seesAll_linkedBy _, _, vaultGraph_linkedBy _, by decide +kernel, ?_⟩
  intro hjoins
  exact absurd (mem_linkTargets.2 hjoins) (by decide +kernel)

end GraphApi

end Gradatum.Access
