import Gradatum.Access.Listing
import Gradatum.Queue.Delivery
import Gradatum.Reasoning.BoundedPages

/-!
# Messages between agents

A message is a note of the section `messaging` and a row of the queue, which is its delivery.
`message_send` writes the note and then enqueues the delivery, `message_poll` makes up for deliveries that
are missing and `message_ack` ends one.
-/

open Reasoning

namespace Gradatum.Access

open Notes
open Queue (Ulid JobRecord JobTable JobStatus JobResult Clock QueueError getMany recordOf)

/-! ## 1. Requests -/

def maxMessageBodyBytes : Nat := 64 * 1024

def maxMessageSubjectBytes : Nat := 512

def maxMessageRecipientBytes : Nat := 256

structure MessageSendRequest where
  recipientIdentity : String
  subject : Option String
  body : String

inductive MessageValidationError where
  | bodyTooLarge (size max : Nat)
  | subjectTooLarge (size max : Nat)
  | recipientIdentityMalformed
  | recipientIdentityTooLarge (size max : Nat)

def MessageValidationError.message : MessageValidationError → String
  | bodyTooLarge size max => s!"message body too large ({size} bytes > {max} cap)"
  | subjectTooLarge size max => s!"message subject too large ({size} bytes > {max} cap)"
  | recipientIdentityMalformed =>
    "recipient identity malformed (expected `identity/<kind>/<id>`, non-empty)"
  | recipientIdentityTooLarge size max => s!"recipient identity too large ({size} bytes > {max} cap)"

def isIdentity (text : String) : Bool :=
  let rest := text.toList.drop "identity/".length
  "identity/".toList.isPrefixOf text.toList && !rest.isEmpty && (rest.splitOn '/').all (!·.isEmpty)

structure ValidatedMessageSend extends MessageSendRequest where
  body_le : body.utf8ByteSize ≤ maxMessageBodyBytes
  subject_le : subject.all (·.utf8ByteSize ≤ maxMessageSubjectBytes) = true
  recipient_le : recipientIdentity.utf8ByteSize ≤ maxMessageRecipientBytes
  recipient_isIdentity : isIdentity recipientIdentity = true

def ValidatedMessageSend.tryFrom (req : MessageSendRequest) :
    Except MessageValidationError ValidatedMessageSend :=
  if hbody : req.body.utf8ByteSize ≤ maxMessageBodyBytes then
    if hsubject : req.subject.all (·.utf8ByteSize ≤ maxMessageSubjectBytes) = true then
      if hrecipient : req.recipientIdentity.utf8ByteSize ≤ maxMessageRecipientBytes then
        if hidentity : isIdentity req.recipientIdentity = true then
          .ok ⟨req, hbody, hsubject, hrecipient, hidentity⟩
        else .error .recipientIdentityMalformed
      else .error (.recipientIdentityTooLarge req.recipientIdentity.utf8ByteSize maxMessageRecipientBytes)
    else .error (.subjectTooLarge (req.subject.getD "").utf8ByteSize maxMessageSubjectBytes)
  else .error (.bodyTooLarge req.body.utf8ByteSize maxMessageBodyBytes)

def creditedAgentIdentity : TrustContext → Option String
  | .bearerToken sub _ _ => some ("identity/agent/" ++ sub)
  | _ => none

def messagingChannelLocus (recipient : String) : LocusId where
  path := "messaging/" ++ recipient
  nonempty := by
    intro hempty
    have hlength := congrArg String.length hempty
    simp [String.length_append] at hlength

theorem messagingChannelLocus_inj
    (h : (messagingChannelLocus recipient).path = (messagingChannelLocus recipient').path) :
    recipient = recipient' := by
  have hlist := congrArg String.toList h
  simp only [messagingChannelLocus, String.toList_append] at hlist
  exact String.ext (List.append_cancel_left hlist)

/-! ## 2. The state -/

structure MailState where
  vault : IndexedVault
  jobs : JobTable

/-- `AppState` of a server whose own instance is that of the vault `main`. -/
structure MailApi extends Api where
  servesMain : server.vault.vaultId = "main"

structure MessageRecord where
  key : NoteKey
  row : NoteRow

def MessageRecord.id (r : MessageRecord) : Ulid := r.key.id

/-- `COALESCE(author_display_name, author_id)`. -/
def MessageRecord.author (r : MessageRecord) : Option String :=
  r.row.author.map fun author => author.displayName.getD author.id

def records (v : IndexedVault) : List MessageRecord :=
  v.keys.filterMap fun key => (v.state.notes key).map fun row => ⟨key, row⟩

/-- The `WHERE` clause of `list_messaging_notes`, but for the cursor. -/
def MessageRecord.inMailbox (vaults : List VaultId) (recipient : String) (r : MessageRecord) : Bool :=
  r.row.section = .messaging && vaults.contains r.key.vault &&
    r.row.locus = some (messagingChannelLocus recipient).path && r.row.status ≠ .downgraded &&
    !isSentinel (ulidText r.id)

def ulidPrecedes (a b : Ulid) : Bool := a < b

/-- A cursor is compared with ids, so it stands for its place among them. -/
def listMessagingNotes (v : IndexedVault) (vaults : List VaultId) (recipient : String) (limit : Nat)
    (cursor : Option Ulid) : List MessageRecord :=
  keysetQuery ulidPrecedes MessageRecord.id (max 1 (min 200 limit))
    (MessageRecord.inMailbox vaults recipient) (fun _ => true) (records v) cursor

def QueueError.text : QueueError → String
  | .storage message => "storage error: " ++ message
  | .notFound id => "job not found: " ++ ulidText id
  | .serialization message => "serialization error: " ++ message
  | .notLeased id => "job " ++ ulidText id ++ " is not leased or lease expired — cannot complete/fail"

/-! ## 3. Sending -/

def buildMessageJobRecord (now : Instant) (messageId : Ulid) (vault : VaultId) (recipient : String) :
    JobRecord where
  id := messageId
  spec :=
    { kind := .message messageId recipient
      jobClass := .system
      scope := .vault vault
      priority := .low }
  scheduling := { scheduledAt := now, awaitJobs := [], deadline := none }
  lifecycle := { status := .pending, createdAt := now, completedAt := none, result := none }
  retry := { count := 0, max := 3, lastError := none, errors := [] }

structure MessageSendResponse where
  messageId : Ulid
  status : String
  jobId : Ulid
  pollUrl : String

def MessageSendResponse.new (messageId : Ulid) : MessageSendResponse where
  messageId := messageId
  status := "accepted"
  jobId := messageId
  pollUrl := "/api/v1/jobs/" ++ ulidText messageId ++ "/v2"

/-- What a send takes from outside: the new ULID, the readings of the clock, what its write takes, and the
error of its enqueue if the store fails. -/
structure SendDraw where
  messageId : Ulid
  now : Instant
  input : WriteInput
  enqueuedAt : Instant
  enqueueError : Option QueueError

structure Letter where
  request : ValidatedMessageSend
  sender : String
  vault : VaultId

def Letter.frontmatter (letter : Letter) (now : Instant) : Frontmatter where
  schemaVersion := 1
  vaultId := letter.vault
  locus := some (messagingChannelLocus letter.request.recipientIdentity)
  «section» := .messaging
  status := .live
  statusReason := none
  statusChanged := none
  tags := []
  author := some { kind := .system, id := letter.sender, displayName := none }
  created := now
  updated := none
  extra :=
    match letter.request.subject with
    | some subject => ExtraFields.empty.insert "subject" (.text subject)
    | none => .empty
  provenance := some "messaging"
  forgotten := none
  forgottenAt := none
  forgottenBy := none

def writeErrorText : VaultError → String
  | .noteNotFound id => "note not found: " ++ ulidText id
  | .detectorUnavailable =>
    "validation error: invalid input: privacy mask: the detection pass did not complete " ++
      "(detector_unavailable) — the body was not written rather than persisted unmasked"
  | .aclMismatch vaultId checked =>
    "storage error: write_note_with_id_internal: frontmatter vault_id '" ++ vaultId ++
      "' ≠ ACL witness '" ++ checked ++ "' (fail-closed)"

namespace MailApi

variable (api : MailApi)

def letterOf (trust : TrustContext) (req : MessageSendRequest) : Except ApiError Letter := do
  require trust.isAuthenticated .unauthorized
  let validated ← (ValidatedMessageSend.tryFrom req).mapError fun e => .invalidInput e.message
  let sender ← present (creditedAgentIdentity trust)
    (.forbidden "message_send requires a credited agent credential")
  require (api.policy.acl trust .write (messagingChannelLocus validated.recipientIdentity).path)
    (.forbidden "denied")
  let vault ← orForbidden "message_send vault resolution" (api.policy.effectiveWriteVault trust none)
  return ⟨validated, sender, vault⟩

def writeMail (letter : Letter) (draw : SendDraw) (s : VaultState) : Except VaultError Note × VaultState :=
  api.server.vault.writeNoteWithIdInternal letter.vault draw.input (letter.frontmatter draw.now)
    letter.request.body draw.messageId s

def mailKey (letter : Letter) (draw : SendDraw) : NoteKey :=
  ⟨(api.server.vault.fillVaultId (letter.frontmatter draw.now)).vaultId, draw.messageId⟩

theorem isSome_of_writeMail (h : (api.writeMail letter draw s).2.notes key = some row) :
    (s.notes key).isSome ∨ key ∈ [api.mailKey letter draw] := by
  by_cases hkey : key = api.mailKey letter draw
  · exact .inr (List.mem_singleton.2 hkey)
  · left
    rw [writeMail] at h
    rcases Vault.writeNoteWithIdInternal_cases (v := api.server.vault) letter.vault draw.input
      (letter.frontmatter draw.now) letter.request.body draw.messageId s with ⟨e, hreply⟩ | hreply
    · rw [hreply] at h
      exact Option.isSome_of_eq_some h
    · rw [hreply] at h
      exact Option.isSome_of_eq_some ((Function.update_of_ne hkey _ _).symm.trans h)

def withMail (letter : Letter) (draw : SendDraw) (v : IndexedVault) : IndexedVault :=
  v.update [api.mailKey letter draw] (api.writeMail letter draw v.state).2
    fun _ _ h => api.isSome_of_writeMail h

def messageSend (trust : TrustContext) (req : MessageSendRequest) (draw : SendDraw) (s : MailState) :
    Except ApiError MessageSendResponse × MailState :=
  match api.letterOf trust req with
  | .error e => (.error e, s)
  | .ok letter =>
    match (api.writeMail letter draw s.vault.state).1 with
    | .error e => (.error (.storage ("message note write: " ++ writeErrorText e)), s)
    | .ok _ =>
      let written := { s with vault := api.withMail letter draw s.vault }
      match draw.enqueueError with
      -- the note is written and its delivery is missing
      | some e => (.error (.storage ("delivery enqueue: " ++ QueueError.text e)), written)
      | none =>
        match Queue.enqueue (buildMessageJobRecord draw.enqueuedAt draw.messageId letter.vault
          letter.request.recipientIdentity) s.jobs with
        | (.error e, jobs) =>
          (.error (.storage ("delivery enqueue: " ++ QueueError.text e)), { written with jobs })
        | (.ok _, jobs) => (.ok (.new draw.messageId), { written with jobs })

end MailApi

def recreateDeliveries (now : Instant) (recipient : String) (existing : List JobRecord) :
    List MessageRecord → Nat → JobTable → Nat × JobTable
  | [], recreated, jobs => (recreated, jobs)
  | r :: rest, recreated, jobs =>
    if (recordOf existing r.id).isSome then
      recreateDeliveries now recipient existing rest recreated jobs
    else
      match Queue.enqueue (buildMessageJobRecord now r.id r.key.vault recipient) jobs with
      | (.ok _, jobs) => recreateDeliveries now recipient existing rest (recreated + 1) jobs
      | (.error _, jobs) => recreateDeliveries now recipient existing rest recreated jobs

/-- One page of the mailbox is looked at, from its start. -/
def MailState.reconcileDeliveryJobs (now : Instant) (vaults : List VaultId) (recipient : String)
    (s : MailState) : Except ApiError Nat × MailState :=
  let found := listMessagingNotes s.vault vaults recipient 200 none
  match getMany (found.map MessageRecord.id) none s.jobs with
  | .error e => (.error (.storage ("reconcile get_many deliveries: " ++ QueueError.text e)), s)
  | .ok existing =>
    let recreated := recreateDeliveries now recipient existing found 0 s.jobs
    (.ok recreated.1, { s with jobs := recreated.2 })

/-! ## 4. Acknowledging -/

structure MessageAckResponse where
  status : String

def deliveryRecipient (job : JobRecord) : Option String :=
  match job.spec.kind with
  | .message _ recipient => some recipient
  | _ => none

def ackResult : JobResult where
  success := true
  durationMs := 1
  resultNote := none

/-- An id that is no ULID is refused before. -/
def messageAck (trust : TrustContext) (id : Ulid) (clk : Clock) (s : MailState) :
    Except ApiError MessageAckResponse × MailState :=
  let checked : Except ApiError Unit := do
    require trust.isAuthenticated .unauthorized
    let recipient ← present (creditedAgentIdentity trust)
      (.forbidden "message_ack requires a credited agent credential")
    let job ← (Queue.get id none s.jobs).mapError fun e =>
      .storage ("message delivery get: " ++ QueueError.text e)
    let job ← present job (.storage "message delivery not found")
    require (deliveryRecipient job = some recipient) (.storage "message delivery not found")
  match checked with
  | .error e => (.error e, s)
  | .ok () =>
    match Queue.completeMessageDelivery clk id ackResult s.jobs with
    | (.error (.notFound _), jobs) =>
      (.error (.storage "message delivery not found"), { s with jobs })
    | (.error e, jobs) =>
      (.error (.storage ("message delivery complete: " ++ QueueError.text e)), { s with jobs })
    | (.ok (), jobs) => (.ok ⟨"delivered"⟩, { s with jobs })

/-! ## 5. Polling -/

structure MessageEnvelope where
  messageId : Ulid
  senderIdentity : String
  recipientIdentity : String
  subject : Option String
  body : String
  createdAt : Int
  vaultId : Option VaultId

structure MessagePollResponse where
  messages : List MessageEnvelope
  nextCursor : Option Ulid

inductive MessagePollStatus where
  | accepted
  | delivered
  deriving DecidableEq

def MessagePollStatus.parse (raw : Option String) : Option MessagePollStatus :=
  let text := String.ofList (trim (raw.getD "").toList)
  if text = "" ∨ text = "accepted" then some .accepted
  else if text = "delivered" then some .delivered
  else none

/-- The filter lets a message through whose delivery is `Done`, or is not. -/
def MessagePollStatus.selects (filter : MessagePollStatus) (acknowledged : Bool) : Bool :=
  match filter with
  | .accepted => !acknowledged
  | .delivered => acknowledged

def messagePollPageMax : Nat := 200

def messagePollMaxPages : Nat := 20

structure Inbox where
  recipient : String
  filter : MessagePollStatus
  vaults : List VaultId

namespace MailApi

variable (api : MailApi)

def readableMessagingVaults (trust : TrustContext) : Except ApiError (List VaultId) :=
  if !api.policy.multiTenant then .ok ["main"]
  else
    match trust with
    | .bearerToken sub _ tenant => do
        let covered := fun grants : List VaultGrant =>
          (grants.filter (·.coversSection (some Section.messaging.asStr))).map VaultGrant.vaultId
        let tenantGrants ← present (api.policy.tenantGrants tenant) (.storage "tenant_grants query")
        let agentGrants ← present (api.policy.agentGrants sub) (.storage "agent_grants query")
        -- unlike in the guards of the notes, an agent without any grant reads nothing
        return (covered tenantGrants).filter (covered agentGrants).contains
    | _ => .ok []

def inboxOf (trust : TrustContext) (status : Option String) : Except ApiError Inbox := do
  require trust.isAuthenticated .unauthorized
  let recipient ← present (creditedAgentIdentity trust)
    (.forbidden "message_poll requires a credited agent credential")
  let filter ← present (MessagePollStatus.parse status)
    (.invalidInput "status must be 'accepted' or 'delivered'")
  let vaults ← api.readableMessagingVaults trust
  return ⟨recipient, filter, vaults⟩

/-- The envelope of a record, if its note is read.  Ids of messages differ between vaults, so reading the
notes of a page vault by vault is reading them one by one. -/
def envelope (s : VaultState) (recipient : String) (r : MessageRecord) : Option MessageEnvelope :=
  ((api.readBackReader r.key.vault).toOption.bind fun reader => reader.readNote s r.id).map fun note =>
    { messageId := r.id
      senderIdentity := r.author.getD ""
      recipientIdentity := recipient
      subject := (note.frontmatter.extra "subject").bind Toml.asStr?
      body := r.row.bodyText
      createdAt := r.row.created
      vaultId := some r.key.vault }

def shows (s : VaultState) (inbox : Inbox) (jobs : List JobRecord) (r : MessageRecord) : Bool :=
  inbox.filter.selects ((recordOf jobs r.id).any (·.lifecycle.status = .done)) &&
    (api.envelope s inbox.recipient r).isSome

def pollPages (inbox : Inbox) (want : Nat) (s : MailState) :
    Nat → Option Ulid → List MessageRecord → Except ApiError (Page MessageRecord Ulid)
  | 0, cursor, messages => .ok ⟨messages, cursor⟩
  | rounds + 1, cursor, messages => do
      let found := listMessagingNotes s.vault inbox.vaults inbox.recipient want cursor
      let jobs ← (getMany (found.map MessageRecord.id) none s.jobs).mapError fun e =>
        .storage ("delivery get_many: " ++ QueueError.text e)
      -- a vault without a handle ends the poll
      let _ ← found.mapM fun r => api.readBackReader r.key.vault
      let scanned := scan want (api.shows s.vault.state inbox jobs) messages found
      if scanned.1.length = want then return ⟨scanned.1, scanned.2.map MessageRecord.id⟩
      else if found.length < want then return ⟨scanned.1, none⟩
      else pollPages inbox want s rounds (found.getLast?.map MessageRecord.id) scanned.1

def messagePoll (trust : TrustContext) (status : Option String) (limit : Nat) (cursor : Option Ulid)
    (now : Instant) (s : MailState) : Except ApiError MessagePollResponse × MailState :=
  match api.inboxOf trust status with
  | .error e => (.error e, s)
  | .ok inbox =>
    if inbox.vaults = [] then (.ok ⟨[], none⟩, s)
    else
      match s.reconcileDeliveryJobs now inbox.vaults inbox.recipient with
      | (.error e, s) => (.error e, s)
      | (.ok _, s) =>
        let want := max 1 (min messagePollPageMax limit)
        let page := api.pollPages inbox want s messagePollMaxPages cursor []
        (page.map fun page =>
          ⟨page.items.filterMap (api.envelope s.vault.state inbox.recipient), page.next⟩, s)

end MailApi

inductive MailEvent where
  | send (trust : TrustContext) (req : MessageSendRequest) (draw : SendDraw)
  | poll (trust : TrustContext) (status : Option String) (limit : Nat) (cursor : Option Ulid)
      (now : Instant)
  | ack (trust : TrustContext) (id : Ulid) (clk : Clock)

def MailApi.step (api : MailApi) (s : MailState) : MailEvent → MailState
  | .send trust req draw => (api.messageSend trust req draw s).2
  | .poll trust status limit cursor now => (api.messagePoll trust status limit cursor now s).2
  | .ack trust id clk => (messageAck trust id clk s).2

def FreshId (s : MailState) : MailEvent → Prop
  | .send _ _ draw => (∀ vault, s.vault.state.notes ⟨vault, draw.messageId⟩ = none) ∧
      s.jobs.find? draw.messageId = none
  | _ => True

end Gradatum.Access
