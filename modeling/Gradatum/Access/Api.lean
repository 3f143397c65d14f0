import Gradatum.Access.Guard
import Gradatum.Notes.ForgetJob
import Gradatum.Notes.Query

/-!
# The state of the API server

What the handlers of the public API share: how a reference is resolved to a note, which vault a handler
reads in, and how it learns the title and the section that the guards of souls go by.
-/

open Reasoning

namespace Gradatum.Access

open Notes

/-- `AppState`, as far as the handlers below read it. -/
structure Api where
  policy : Policy
  server : Server
  sameMode : policy.multiTenant = server.multiTenant
  /-- The vaults that have a handle in the registry. -/
  handles : VaultId → Bool
  /-- `Ulid::from_string`. -/
  parseUlid : String → Option NoteId
  /-- `resolve_redirect` for the slug of a reference. -/
  redirects : VaultId → String → Option NoteId

/-! ## 1. References -/

/-- A note as a request names it.  The index is asked for the text, the vault for the id. -/
structure NoteRef where
  text : String
  id : NoteId
  deriving DecidableEq

def NoteRef.isCanonical (ref : NoteRef) : Bool := ref.text = ulidText ref.id

def NoteRef.ofId (id : NoteId) : NoteRef := ⟨ulidText id, id⟩

@[simp] theorem NoteRef.isCanonical_ofId (id : NoteId) : (NoteRef.ofId id).isCanonical = true :=
  decide_eq_true rfl

/-- `rsplit('/').next()`. -/
def lastSegment (path : String) : String :=
  String.ofList (path.toList.reverse.takeWhile (· ≠ '/')).reverse

def maxRefEchoChars : Nat := 96

def echoRef (reference : String) : String :=
  let head := (String.ofList (reference.toList.take maxRefEchoChars)).quote
  if maxRefEchoChars < reference.length then s!"{head}(truncated)" else head

section Index

variable {s : VaultState} (index : Answers s)

/-- `ORDER BY created DESC LIMIT 1`. -/
def newest (vault : VaultId) (cond : NoteRow → Bool) : Option NoteId :=
  let created := fun id => ((s.notes ⟨vault, id⟩).map (·.created)).getD 0
  ((index.select vault cond).mergeSort fun a b => created b ≤ created a).head?

def escapeLikePattern (text : String) : String :=
  String.ofList (text.toList.flatMap fun c => if c = '%' || c = '_' || c = '\\' then ['\\', c] else [c])

/-- The title column comes first, the heading of the body second.  The pattern that ends with the heading
is compared with `=`, escapes included. -/
def titleLookup (vault : VaultId) (title : String) : Option NoteId :=
  (newest index vault fun row => row.title = some title && row.status = .of .live).or
    (newest index vault fun row => row.status = .of .live &&
      (likeStart s!"# {title}\n" row.bodyText || row.bodyText = "# " ++ escapeLikePattern title))

end Index

def getTitleSection (s : VaultState) (vault : VaultId) (ref : NoteRef) :
    Option (Option String × String) :=
  if ref.isCanonical then
    (s.notes ⟨vault, ref.id⟩).map fun row => (row.title, row.section.asStr)
  else none

def resolveTitleSectionFailclosed (s : VaultState) (vault : VaultId) (ref : NoteRef) :
    Option String × String :=
  (getTitleSection s vault ref).getD (none, "")

namespace Api

variable (api : Api)

/-- A reference that ends in a ULID is not looked up. -/
def resolveNoteRefOpt {s : VaultState} (index : Answers s) (tenant : VaultId) (reference : String) :
    Option NoteRef :=
  match api.parseUlid (lastSegment reference) with
  | some id => some ⟨lastSegment reference, id⟩
  | none => ((titleLookup index tenant reference).or (api.redirects tenant reference)).map NoteRef.ofId

def resolveNoteRefStrict {s : VaultState} (index : Answers s) (tenant : VaultId)
    (reference : String) : Except ApiError NoteRef :=
  match api.resolveNoteRefOpt index tenant reference with
  | some ref => .ok ref
  | none =>
    let echoed := echoRef reference
    .error (.invalidInput (s!"unresolvable note reference {echoed} — expected a bare ULID, " ++
      "a prefixed \"section/ULID\", an exact note title, or a redirect slug"))

def instanceOf (vault : VaultId) : Vault := { api.server.vault with vaultId := vault }

def readBackReader (tenant : VaultId) : Except ApiError Vault :=
  if api.policy.multiTenant then
    if api.handles tenant then .ok (api.instanceOf tenant) else .error (.vaultNotFound tenant)
  else .ok api.server.vault

theorem readBackReader_ok {tenant : VaultId} {v : Vault} (hmode : api.policy.multiTenant = true)
    (h : api.readBackReader tenant = .ok v) : v = api.instanceOf tenant := by
  unfold readBackReader at h
  rw [if_pos hmode] at h
  split at h
  · cases h
    rfl
  · cases h

end Api

/-- A server of the vault `main` that knows other vaults, and small ULIDs. -/
def plainApi : Api where
  policy := plainPolicy
  server := { plainServer with multiTenant := true }
  sameMode := rfl
  handles := fun _ => true
  parseUlid := fun text => (List.range 4).find? fun id => ulidText id = text
  redirects := fun _ _ => none

end Gradatum.Access
