import Gradatum.Access.Mailbox

/-!
# What an agent sees of its mailbox

Following the cursors of `message_poll` shows every message of the caller once.  A message that is shown as
accepted can be acknowledged if its delivery is there after the poll.
-/

open Reasoning

namespace Gradatum.Access

open Notes List Option
open Queue (Ulid JobRow JobTable QueueError Clock DeliveryRow)

/-! ## 1. Following the cursors -/

/-- Poll page after page until an answer names no next one.  `clock` has the times of the polls. -/
def MailApi.followPolls (api : MailApi) (trust : TrustContext) (status : Option String) (limit : Nat)
    (clock : Nat → Instant) : Nat → Option Ulid → MailState → Option (List MessagePollResponse)
  | 0, _, _ => none
  | fuel + 1, cursor, s =>
    match api.messagePoll trust status limit cursor (clock fuel) s with
    | (.error _, _) => none
    | (.ok response, s) =>
      match response.nextCursor with
      | none => some [response]
      | some c => (followPolls api trust status limit clock fuel (some c) s).map (response :: ·)

def shownIds (pages : List MessagePollResponse) : List Ulid :=
  pages.flatMap fun page => page.messages.map MessageEnvelope.messageId

def MailApi.response (api : MailApi) (s : MailState) (recipient : String) (page : Page MessageRecord Ulid) :
    MessagePollResponse :=
  ⟨page.items.filterMap (api.envelope s.vault.state recipient), page.next⟩

section Pages

variable {api : MailApi} {s s' : MailState} {filter : MessagePollStatus}

structure Unchanged (s s' : MailState) : Prop where
  vault : s'.vault = s.vault
  delivered : ∀ id, s'.delivered id = s.delivered id

theorem Unchanged.page_eq (h : Unchanged s s') (filter : MessagePollStatus) (vaults : List VaultId)
    (recipient : String) (limit : Nat) (cursor : Option Ulid) :
    s'.page filter vaults recipient limit cursor = s.page filter vaults recipient limit cursor := by
  unfold MailState.page
  simp only [h.vault, h.delivered]

theorem MailInv.followPolls_eq (h : MailInv api s') (hsame : Unchanged s s')
    (hcall : Caller api trust recipient vaults) (hstat : MessagePollStatus.parse status = some filter)
    (limit : Nat) (clock : Nat → Instant) (fuel : Nat) (cursor : Option Ulid) :
    api.followPolls trust status limit clock fuel cursor s' =
      (follow (fun c => some (s.page filter vaults recipient limit c)) Page.next fuel cursor).map
        (List.map (api.response s recipient)) := by
  induction fuel generalizing cursor s' with
  | zero => rfl
  | succ fuel ih =>
    obtain ⟨s'', hpoll, hrecon⟩ := h.messagePoll_eq hcall hstat limit cursor (clock fuel)
    have hinv := hrecon.mailInv h fun r hr => mem_listMessagingNotes hr
    have hsame' : Unchanged s s'' := ⟨hrecon.vault.trans hsame.vault, fun id =>
      (hrecon.delivered_eq id).trans (hsame.delivered id)⟩
    rw [MailApi.followPolls, hpoll, follow, bind_some, hsame.page_eq, hsame.vault]
    dsimp only
    cases hnext : (s.page filter vaults recipient limit cursor).next with
    | none =>
      rw [map_some, map_singleton, MailApi.response, hnext]
    | some c =>
      dsimp only
      rw [ih hinv hsame', Option.map_map, Option.map_map]
      refine congrArg (Option.map · _) (funext fun pages => ?_)
      simp only [Function.comp_apply, map_cons, MailApi.response, hnext]

theorem map_messageId_filterMap {items : List MessageRecord}
    (h : ∀ r ∈ items, (api.envelope v recipient r).isSome = true) :
    (items.filterMap (api.envelope v recipient)).map MessageEnvelope.messageId =
      items.map MessageRecord.id := by
  induction items with
  | nil => rfl
  | cons r items ih =>
    rw [forall_mem_cons] at h
    obtain ⟨m, hm⟩ := isSome_iff_exists.1 h.1
    rw [filterMap_cons_some hm, map_cons, map_cons, ih h.2, messageId_of_envelope hm]

/-- The pages of a client that follows the cursors hold the messages with the status, in the order of their
ids. -/
theorem MailInv.follow_pages (h : MailInv api s) (filter : MessagePollStatus) (vaults : List VaultId)
    (recipient : String) (limit : Nat) (hfuel : (s.mailbox vaults recipient).length < fuel) :
    ∃ pages, follow (fun c => some (s.page filter vaults recipient limit c)) Page.next fuel none = some pages ∧
      pages.flatMap Page.items = (s.sortedMailbox vaults recipient).filter fun r =>
        filter.selects (s.delivered r.id) := by
  have hwant : max 1 (min 200 (max 1 (min messagePollPageMax limit))) =
      max 1 (min messagePollPageMax limit) := by
    unfold messagePollPageMax
    omega
  have hserv := h.serves vaults recipient (max 1 (min messagePollPageMax limit))
  rw [hwant] at hserv
  have hlen : (s.sortedMailbox vaults recipient).length < fuel := by
    rw [MailState.sortedMailbox, sortByKey, length_insertionSort]
    exact hfuel
  exact follow_fillWithin hserv (by omega) (fun r => filter.selects (s.delivered r.id)) 19 hlen .start

theorem MailInv.followPolls_shown (h : MailInv api s) (hcall : Caller api trust recipient vaults)
    (hstat : MessagePollStatus.parse status = some filter) (limit : Nat) (clock : Nat → Instant)
    (hfuel : (s.mailbox vaults recipient).length < fuel) :
    ∃ pages, api.followPolls trust status limit clock fuel none s = some pages ∧
      shownIds pages = ((s.sortedMailbox vaults recipient).filter fun r =>
        filter.selects (s.delivered r.id)).map MessageRecord.id := by
  obtain ⟨pages, hpages, hitems⟩ := h.follow_pages filter vaults recipient limit hfuel
  refine ⟨pages.map (api.response s recipient), ?_, ?_⟩
  · rw [h.followPolls_eq ⟨rfl, fun _ => rfl⟩ hcall hstat, hpages, map_some]
  rw [← hitems, shownIds, flatMap_map, map_flatMap]
  refine flatMap_congr fun page hpage => ?_
  obtain ⟨c, hask⟩ := ask_of_mem_follow hpages hpage
  refine map_messageId_filterMap fun r hr => ?_
  rw [← Option.some.inj hask] at hr
  obtain ⟨hrec, hmail⟩ := mem_filter.1 (mem_page hr).1
  exact h.isSome_envelope hcall hrec hmail

end Pages

/-! ## 2. Steps -/

section Steps

variable {api : MailApi} {s : MailState}

theorem messageAck_state (trust : TrustContext) (id : Ulid) (clk : Clock) (s : MailState) :
    (messageAck trust id clk s).2 = s ∨ (messageAck trust id clk s).2 =
      { s with jobs := (Queue.completeMessageDelivery clk id ackResult s.jobs).2 } := by
  unfold messageAck
  dsimp only
  split
  · exact .inl rfl
  right
  split
  · rename_i hcompl
    rw [hcompl]
  · rename_i hcompl
    rw [hcompl]
  · rename_i hcompl
    rw [hcompl]

theorem MailInv.messagePoll_state (h : MailInv api s) (trust : TrustContext) (status : Option String)
    (limit : Nat) (cursor : Option Ulid) (now : Instant) :
    (api.messagePoll trust status limit cursor now s).2 = s ∨ ∃ recipient vaults,
      Reconciled recipient (listMessagingNotes s.vault vaults recipient 200 none) s
        (api.messagePoll trust status limit cursor now s).2 := by
  unfold MailApi.messagePoll
  cases api.inboxOf trust status with
  | error e => exact .inl rfl
  | ok inbox =>
    dsimp only
    split
    · exact .inl rfl
    obtain ⟨n, s', hreconcile, hrecon⟩ := h.reconcile now inbox.vaults inbox.recipient
    rw [hreconcile]
    exact .inr ⟨_, _, hrecon⟩

theorem MailInv.complete (h : MailInv api s) (id : Ulid) (clk : Clock) :
    MailInv api { s with jobs := (Queue.completeMessageDelivery clk id ackResult s.jobs).2 } := by
  refine h.withJobs ?_
  intro key row recipient _ _ _ hdeliv job hjob
  rw [Queue.completeMessageDelivery, Queue.find?_patchRecord, map_eq_some_iff] at hjob
  obtain ⟨old, hold, rfl⟩ := hjob
  exact (hdeliv old hold).patched clk id ackResult

inductive MailStep (api : MailApi) (s : MailState) : MailState → Prop
  | same : MailStep api s s
  | mailed {letter : Letter} {draw : SendDraw} {s' : MailState} (hmailed : Mailed api letter draw s s')
      (hnotes : ∀ vault, s.vault.state.notes ⟨vault, draw.messageId⟩ = none)
      (hjobs : s.jobs.find? draw.messageId = none) : MailStep api s s'
  | reconciled {recipient : String} {vaults : List VaultId} {s' : MailState}
      (hreconciled : Reconciled recipient (listMessagingNotes s.vault vaults recipient 200 none) s s') :
      MailStep api s s'
  | acknowledged (id : Ulid) (clk : Clock) :
      MailStep api s { s with jobs := (Queue.completeMessageDelivery clk id ackResult s.jobs).2 }

theorem MailInv.step_cases (h : MailInv api s) (hfresh : FreshId s e) : MailStep api s (api.step s e) := by
  cases e with
  | send trust req draw =>
    rcases messageSend_cases api trust req draw s with hsame | ⟨letter, hmail⟩
    · rw [MailApi.step, hsame]
      exact .same
    · exact .mailed hmail hfresh.1 hfresh.2
  | poll trust status limit cursor now =>
    rcases h.messagePoll_state trust status limit cursor now with hsame | ⟨recipient, vaults, hrecon⟩
    · rw [MailApi.step, hsame]
      exact .same
    · exact .reconciled hrecon
  | ack trust id clk =>
    rcases messageAck_state trust id clk s with hsame | hnew
    · rw [MailApi.step, hsame]
      exact .same
    · rw [MailApi.step, hnew]
      exact .acknowledged id clk

theorem MailStep.mailInv (hstep : MailStep api s s') (h : MailInv api s) : MailInv api s' := by
  cases hstep with
  | same => exact h
  | mailed hmail hnotes hjobs => exact hmail.mailInv h hnotes hjobs
  | reconciled hrecon => exact hrecon.mailInv h fun r hr => mem_listMessagingNotes hr
  | acknowledged id clk => exact h.complete id clk

theorem MailStep.delivered (hstep : MailStep api s s') {id : Ulid}
    (hdone : s.delivered id = true) : s'.delivered id = true := by
  rw [MailState.delivered, Option.any_eq_true] at hdone ⊢
  obtain ⟨job, hjob, hstat⟩ := hdone
  refine ⟨job, ?_, hstat⟩
  cases hstep with
  | same => exact hjob
  | mailed hmail _ hjobs =>
    rw [← hjob]
    apply hmail.find?_of_ne
    rintro rfl
    cases hjobs.symm.trans hjob
  | reconciled hrecon => exact hrecon.kept id job hjob
  | acknowledged id' clk =>
    rw [Queue.completeMessageDelivery, Queue.find?_patchRecord, hjob, map_some,
      DeliveryRow.patched_of_done (of_decide_eq_true hstat)]

theorem MailStep.mem_mailbox (hstep : MailStep api s s') (hr : r ∈ s.mailbox vaults recipient) :
    r ∈ s'.mailbox vaults recipient := by
  obtain ⟨hrec, hmail⟩ := mem_filter.1 hr
  refine mem_filter.2 ⟨?_, hmail⟩
  rw [mem_records] at hrec ⊢
  cases hstep with
  | same | acknowledged => exact hrec
  | mailed hmaile hnotes _ =>
    refine (hmaile.notes_of_ne fun hkey => ?_).trans hrec
    rw [hkey] at hrec
    cases (hnotes _).symm.trans hrec
  | reconciled hrecon =>
    rw [hrecon.vault]
    exact hrec

end Steps

section Ack

theorem messageAck_ok (hidentity : creditedAgentIdentity trust = some recipient) {id : Ulid}
    (hjob : s.jobs.find? id = some job) (hdeliv : DeliveryRow id recipient job)
    (hopen : s.delivered id = false) (clk : Clock) :
    ∃ s', messageAck trust id clk s = (.ok ⟨"delivered"⟩, s') ∧ s'.delivered id = true := by
  have hpend : job.status = .pending := by
    refine hdeliv.status.resolve_right fun hdone => ?_
    rw [MailState.delivered, hjob, any_some, hdone] at hopen
    cases hopen
  obtain ⟨record, hget, hkind⟩ := hdeliv.get_eq hjob
  obtain ⟨hreply, job', hjob', hdone⟩ := hdeliv.complete hjob hpend clk ackResult
  have howned : deliveryRecipient record = some recipient := by
    rw [deliveryRecipient, hkind]
  rcases hcompl : Queue.completeMessageDelivery clk id ackResult s.jobs with ⟨reply, jobs⟩
  rw [hcompl] at hreply hjob'
  subst hreply
  refine ⟨{ s with jobs }, ?_, ?_⟩
  · rw [messageAck, isAuthenticated_of_identity hidentity, hidentity, hget]
    simp only [Except.mapError, present, require, howned, hcompl, bind, Except.bind, if_true, decide_true]
  · rw [MailState.delivered, hjob', any_some, hdone]
    rfl

theorem messageAck_of_none {id : Ulid} (hjob : s.jobs.find? id = none) (clk : Clock)
    : messageAck trust id clk s ≠ (.ok response, s') := by
  intro hack
  unfold messageAck at hack
  dsimp only at hack
  split at hack
  · cases hack
  rename_i hchk
  simp only [bind_eq_ok_iff, mapError_eq_ok_iff, present_eq_ok_iff] at hchk
  obtain ⟨-, -, -, -, found, hget, job, hfound, -⟩ := hchk
  rw [Queue.get, hjob] at hget
  cases hget
  cases hfound

end Ack

/-! ## 3. Exact mailboxes -/

structure OnlyDelivered (api : MailApi) (trust : TrustContext) (recipient : String) (vaults : List VaultId)
    (id : Ulid) (s : MailState) : Prop where
  notAccepted : ∀ {trust' recipient' vaults' status limit cursor now response s'},
    Caller api trust' recipient' vaults' → MessagePollStatus.parse status = some .accepted →
      api.messagePoll trust' status limit cursor now s = (.ok response, s') →
      id ∉ response.messages.map MessageEnvelope.messageId
  delivered : ∀ {status limit clock fuel}, MessagePollStatus.parse status = some .delivered →
    (s.mailbox vaults recipient).length < fuel →
      ∃ pages, api.followPolls trust status limit clock fuel none s = some pages ∧
        (shownIds pages).count id = 1

/-- The mailbox is sound, whatever is polled and whenever it is acknowledged, and complete, whatever the size
of the pages. -/
structure MailboxExact (api : MailApi) (trust : TrustContext) (recipient : String) (vaults : List VaultId)
    (s : MailState) : Prop where
  sound : ∀ {status limit cursor now response s₁}, MessagePollStatus.parse status = some .accepted →
    api.messagePoll trust status limit cursor now s = (.ok response, s₁) → ∀ m ∈ response.messages,
      ∀ trust' clk, creditedAgentIdentity trust' = some recipient →
        ∃ s₂, messageAck trust' m.messageId clk s₁ = (.ok ⟨"delivered"⟩, s₂) ∧
          ∀ es, EachStep api.step FreshId s₂ es →
            OnlyDelivered api trust recipient vaults m.messageId (run api.step s₂ es)
  complete : ∀ {status filter limit clock fuel}, MessagePollStatus.parse status = some filter →
    (s.mailbox vaults recipient).length < fuel →
      ∃ pages, api.followPolls trust status limit clock fuel none s = some pages ∧
        (∀ r ∈ s.mailbox vaults recipient, filter.selects (s.delivered r.id) = true →
          (shownIds pages).count r.id = 1) ∧
        ∀ id ∈ shownIds pages, ∃ r ∈ s.mailbox vaults recipient,
          r.id = id ∧ filter.selects (s.delivered r.id) = true

section Exact

variable {api : MailApi} {s : MailState} {trust : TrustContext} {recipient : String}
  {vaults : List VaultId} {filter : MessagePollStatus}

section

variable (h : MailInv api s) (hcall : Caller api trust recipient vaults)

include h hcall

theorem MailInv.shown_once (hstat : MessagePollStatus.parse status = some filter) (limit : Nat)
    (clock : Nat → Instant) (hfuel : (s.mailbox vaults recipient).length < fuel) :
    ∃ pages, api.followPolls trust status limit clock fuel none s = some pages ∧
      (∀ r ∈ s.mailbox vaults recipient, filter.selects (s.delivered r.id) = true →
        (shownIds pages).count r.id = 1) ∧ ∀ id ∈ shownIds pages, ∃ r ∈ s.mailbox vaults recipient,
        r.id = id ∧ filter.selects (s.delivered r.id) = true := by
  obtain ⟨pages, hpages, hshown⟩ := h.followPolls_shown hcall hstat limit clock hfuel
  have hmem : ∀ {r}, r ∈ s.sortedMailbox vaults recipient ↔ r ∈ s.mailbox vaults recipient := mem_sortByKey
  have hnodup : (shownIds pages).Nodup := by
    have hsort : ((s.sortedMailbox vaults recipient).map MessageRecord.id).Nodup :=
      ((perm_insertionSort _ _).map MessageRecord.id).nodup_iff.2 (h.nodup_mailbox vaults recipient)
    rw [hshown]
    exact hsort.sublist (filter_sublist.map MessageRecord.id)
  refine ⟨pages, hpages, fun r hr hsel => ?_, fun id hid => ?_⟩
  · refine count_eq_one_of_mem hnodup ?_
    rw [hshown]
    exact List.mem_map_of_mem (mem_filter.2 ⟨hmem.2 hr, hsel⟩)
  rw [hshown] at hid
  obtain ⟨r, hr, hid⟩ := List.mem_map.1 hid
  obtain ⟨hr, hsel⟩ := mem_filter.1 hr
  exact ⟨r, hmem.1 hr, hid, hsel⟩

theorem MailInv.of_messagePoll (hstat : MessagePollStatus.parse status = some filter)
    (hpoll : api.messagePoll trust status limit cursor now s = (.ok response, s₁)) :
    Reconciled recipient (listMessagingNotes s.vault vaults recipient 200 none) s s₁ ∧
      ∀ m ∈ response.messages, ∃ r ∈ s.mailbox vaults recipient, m.messageId = r.id ∧
        filter.selects (s.delivered r.id) = true := by
  obtain ⟨s', hpoll', hrecon⟩ := h.messagePoll_eq hcall hstat limit cursor now
  rw [hpoll'] at hpoll
  obtain ⟨hresp, hstate⟩ := Prod.mk.inj hpoll
  rw [← hstate, ← Except.ok.inj hresp]
  refine ⟨hrecon, fun m hm => ?_⟩
  obtain ⟨r, hr, henvelope⟩ := mem_filterMap.1 hm
  obtain ⟨hmail, hsel⟩ := mem_page hr
  exact ⟨r, hmail, messageId_of_envelope henvelope, hsel⟩

theorem MailInv.onlyDelivered (hr : r ∈ s.mailbox vaults recipient) (hdone : s.delivered r.id = true) :
    OnlyDelivered api trust recipient vaults r.id s where
  notAccepted := by
    intro trust' recipient' vaults' status limit cursor now response s' hcaller' hstat hpoll hshown
    obtain ⟨m, hm, hid⟩ := List.mem_map.1 hshown
    obtain ⟨r', -, hid', hopen⟩ := (h.of_messagePoll hcaller' hstat hpoll).2 m hm
    rw [← hid', hid, hdone] at hopen
    cases hopen
  delivered := by
    intro status limit clock fuel hstat hfuel
    obtain ⟨pages, hpages, honce, -⟩ := h.shown_once hcall hstat limit clock hfuel
    exact ⟨pages, hpages, honce r hr hdone⟩

/-- A message stays in its mailbox and its delivery stays acknowledged, so it is shown as delivered in all
later states. -/
theorem MailInv.onlyDelivered_run (hr : r ∈ s.mailbox vaults recipient) (hdone : s.delivered r.id = true)
    (hfresh : EachStep api.step FreshId s es) :
    OnlyDelivered api trust recipient vaults r.id (run api.step s es) := by
  let Inv (t : MailState) : Prop :=
    MailInv api t ∧ r ∈ t.mailbox vaults recipient ∧ t.delivered r.id = true
  have hstep : ∀ t e, Inv t → FreshId t e → Inv (api.step t e) :=
    fun t e ⟨hinv, hmail, hdone⟩ hfresh =>
      have hstep := hinv.step_cases hfresh
      ⟨hstep.mailInv hinv, hstep.mem_mailbox hmail, hstep.delivered hdone⟩
  have hstart : Inv s := ⟨h, hr, hdone⟩
  obtain ⟨hinv, hmail, hdone⟩ := hfresh.inv_run hstart hstep
  exact hinv.onlyDelivered hcall hmail hdone

end

/-- Every message has its delivery, or fewer than two hundred messages of the mailbox precede it. -/
def Covered (s : MailState) (vaults : List VaultId) (recipient : String) : Prop :=
  ∀ r ∈ s.mailbox vaults recipient, (s.jobs.find? r.id).isSome = true ∨
    ((s.mailbox vaults recipient).filter fun a => a.id < r.id).length < 200

theorem MailInv.exact_of_covered (h : MailInv api s) (hcall : Caller api trust recipient vaults)
    (hcover : Covered s vaults recipient) : MailboxExact api trust recipient vaults s where
  sound := by
    intro status limit cursor now response s₁ hstat hpoll m hm trust' clk hidentity
    obtain ⟨hrecon, hshown⟩ := h.of_messagePoll hcall hstat hpoll
    have hinv := hrecon.mailInv h fun r hr => mem_listMessagingNotes hr
    obtain ⟨r, hmail, hid, hsel⟩ := hshown m hm
    rw [hid]
    -- the delivery is there after the reconciliation
    obtain ⟨job, hjob⟩ : ∃ job, s₁.jobs.find? r.id = some job := by
      rcases hcover r hmail with hsome | hfew
      · obtain ⟨job, hjob⟩ := isSome_iff_exists.1 hsome
        exact ⟨job, hrecon.kept r.id job hjob⟩
      · exact hrecon.reached r ((h.mem_listMessagingNotes_iff hmail).2 hfew)
    have hmail₁ : r ∈ s₁.mailbox vaults recipient := by
      rw [MailState.mailbox, hrecon.vault]
      exact hmail
    have hopen : s₁.delivered r.id = false := by
      rw [hrecon.delivered_eq]
      exact Bool.not_eq_true' _ |>.mp hsel
    obtain ⟨hrec, hmailb⟩ := mem_filter.1 hmail₁
    obtain ⟨hsec, -, hchan⟩ := message_of_inMailbox hmailb
    obtain ⟨-, -, recipient', hlocus, hdeliv⟩ :=
      hinv.posted r.key r.row (mem_records.1 hrec) hsec
    cases messagingChannelLocus_inj (Option.some.inj (hchan.symm.trans hlocus))
    obtain ⟨s₂, hack, hdone⟩ := messageAck_ok hidentity hjob (hdeliv job hjob) hopen clk
    have hs₂ : s₂ = api.step s₁ (.ack trust' r.id clk) := (congrArg Prod.snd hack).symm
    have hnoSend : FreshId s₁ (.ack trust' r.id clk) := trivial
    have hstep := hinv.step_cases hnoSend
    refine ⟨s₂, hack, fun es hfresh => ?_⟩
    subst hs₂
    exact (hstep.mailInv hinv).onlyDelivered_run hcall (hstep.mem_mailbox hmail₁) hdone hfresh
  complete := by
    intro status filter limit clock fuel hstat hfuel
    exact h.shown_once hcall hstat limit clock hfuel

/-- A message that lacks its delivery and that the reconciliation does not reach is shown as accepted, and its
acknowledgement fails. -/
theorem MailInv.covered_of_exact (h : MailInv api s) (hcall : Caller api trust recipient vaults)
    (hexact : MailboxExact api trust recipient vaults s) : Covered s vaults recipient := by
  intro r hr
  by_contra hmissed
  obtain ⟨hnone, hmany⟩ := not_or.1 hmissed
  rw [Bool.not_eq_true, isSome_eq_false_iff, isNone_iff_eq_none] at hnone
  have hopen : MessagePollStatus.accepted.selects (s.delivered r.id) = true := by
    rw [MailState.delivered, hnone]
    rfl
  -- a poll that shows the message
  obtain ⟨pages, hpages, hitems⟩ := h.follow_pages .accepted vaults recipient 1 (Nat.lt_succ_self _)
  have hshown : r ∈ pages.flatMap Page.items := by
    rw [hitems]
    exact mem_filter.2 ⟨mem_sortByKey.2 hr, hopen⟩
  obtain ⟨page, hpage, hitem⟩ := mem_flatMap.1 hshown
  obtain ⟨cursor, hask⟩ := ask_of_mem_follow hpages hpage
  cases hask
  have hstat : MessagePollStatus.parse none = some .accepted := by decide
  obtain ⟨s₁, hpoll, hrecon⟩ := h.messagePoll_eq hcall hstat 1 cursor 0
  obtain ⟨hrec, hmail⟩ := mem_filter.1 hr
  obtain ⟨m, hm⟩ := isSome_iff_exists.1 (h.isSome_envelope hcall hrec hmail)
  obtain ⟨s₂, hack, -⟩ := hexact.sound hstat hpoll m (mem_filterMap.2 ⟨r, hitem, hm⟩) trust ⟨0, 0⟩
    hcall.identity
  rw [messageId_of_envelope hm] at hack
  -- its delivery is still missing
  refine messageAck_of_none ?_ _ hack
  cases hjob : s₁.jobs.find? r.id with
  | none => rfl
  | some job =>
    obtain ⟨⟨r', hr', hid⟩, -, -⟩ := hrecon.added r.id job hnone hjob
    have hmail' : r' ∈ s.mailbox vaults recipient := mem_filter.2 (mem_listMessagingNotes hr')
    cases inj_on_of_nodup_map (h.nodup_mailbox vaults recipient) hmail' hr hid
    exact absurd ((h.mem_listMessagingNotes_iff hr).1 hr') hmany

theorem mailInv_of_noMessages (h : ∀ key row, s.vault.state.notes key = some row → row.section ≠ .messaging) :
    MailInv api s :=
  ⟨fun key row hrow hsec => absurd hsec (h key row hrow),
    fun key _ row _ hrow hsec => absurd hsec (h key row hrow)⟩

/-- In every state that sends, polls and acknowledgements of any agents lead to, the mailbox of an agent is
sound and complete just if it is covered. -/
theorem mailboxExact_iff_covered (api : MailApi) (s : MailState)
    (hstart : ∀ key row, s.vault.state.notes key = some row → row.section ≠ .messaging)
    (es : List MailEvent) (hfresh : EachStep api.step FreshId s es) (trust : TrustContext) (recipient : String)
    (vaults : List VaultId) (hcaller : Caller api trust recipient vaults) :
    MailboxExact api trust recipient vaults (run api.step s es) ↔
      Covered (run api.step s es) vaults recipient := by
  have hinv : MailInv api (run api.step s es) :=
    hfresh.inv_run (mailInv_of_noMessages hstart) fun _ _ h hfresh => (h.step_cases hfresh).mailInv h
  exact ⟨hinv.covered_of_exact hcaller, hinv.exact_of_covered hcaller⟩

end Exact

/-! ## 4. A mailbox of more than two hundred messages -/

def mailServer : MailApi where
  policy := { plainPolicy with multiTenant := false }
  server := plainServer
  sameMode := rfl
  handles := fun _ => true
  parseUlid := fun _ => none
  redirects := fun _ _ => none
  servesMain := rfl

def mailReader : TrustContext := .bearerToken "reader" [] "main"

def readerIdentity : String := "identity/agent/reader"

theorem caller_mailReader : Caller mailServer mailReader readerIdentity ["main"] :=
  ⟨by decide, rfl, fun _ _ => rfl⟩

def mailRequest : MessageSendRequest := ⟨readerIdentity, none, "hello"⟩

def mailLetter : Letter where
  request := ⟨mailRequest, by decide, by decide, by decide, by decide⟩
  sender := "identity/agent/scribe"
  vault := "main"

theorem letterOf_mailRequest : mailServer.letterOf (bearerOf "main") mailRequest = .ok mailLetter := by
  rfl

def mailDraw (enqueueError : Option QueueError) (id : Ulid) : SendDraw where
  messageId := id
  now := 0
  input := .at 0
  enqueuedAt := 0
  enqueueError := enqueueError

def sendMail (enqueueError : Option QueueError) (id : Ulid) : MailEvent :=
  .send (bearerOf "main") mailRequest (mailDraw enqueueError id)

def unusedMail : MailState := ⟨.empty, .empty⟩

/-- The state after the sends of the messages below `n`. -/
structure MailedBelow (n : Nat) (s : MailState) : Prop where
  inv : MailInv mailServer s
  notes : ∀ key row, s.vault.state.notes key = some row → key.id < n
  jobs : ∀ id, n ≤ id → s.jobs.find? id = none
  mail : ∀ id < n, ∃ r ∈ s.mailbox ["main"] readerIdentity, r.id = id

theorem noMessages_unusedMail (key : NoteKey) (row : NoteRow)
    (hrow : unusedMail.vault.state.notes key = some row) : row.section ≠ .messaging := by
  cases hrow

theorem mailedBelow_unusedMail : MailedBelow 0 unusedMail where
  inv := mailInv_of_noMessages noMessages_unusedMail
  notes := by
    intro key row hrow
    cases hrow
  jobs _ _ := rfl
  mail := by
    intro id hid
    cases hid

namespace MailedBelow

theorem freshId (h : MailedBelow n s) (enqueueError : Option QueueError) :
    FreshId s (sendMail enqueueError n) := by
  refine ⟨fun vault => ?_, h.jobs n le_rfl⟩
  rw [eq_none_iff_forall_ne_some]
  intro row hrow
  exact lt_irrefl n (h.notes _ row hrow)

theorem send (h : MailedBelow n s) (enqueueError : Option QueueError) :
    MailedBelow (n + 1) (mailServer.step s (sendMail enqueueError n)) := by
  have hfresh := h.freshId enqueueError
  have hstep := h.inv.step_cases hfresh
  have hmail := mailed_of_letterOf letterOf_mailRequest rfl (mailDraw enqueueError n) s
  refine ⟨hstep.mailInv h.inv, ?_, ?_, ?_⟩
  case refine_1 =>
    intro key row hrow
    by_cases hkey : key = ⟨"main", n⟩
    · rw [hkey]
      exact Nat.lt_succ_self n
    · exact Nat.lt_succ_of_lt (h.notes key row ((hmail.notes_of_ne hkey).symm.trans hrow))
  case refine_2 =>
    intro id hid
    exact (hmail.find?_of_ne (Nat.ne_of_gt hid)).trans (h.jobs id (Nat.le_of_succ_le hid))
  case refine_3 =>
    intro id hid
    rcases Nat.lt_succ_iff_lt_or_eq.1 hid with hold | rfl
    · obtain ⟨r, hr, hr'⟩ := h.mail id hold
      exact ⟨r, hstep.mem_mailbox hr, hr'⟩
    · exact ⟨_, hmail.mem_mailbox hfresh.1 (mem_singleton.2 rfl), rfl⟩

end MailedBelow

/-- The sends of the messages below `n`; `errors` tells whose enqueue fails. -/
def mails (errors : Nat → Option QueueError) (n : Nat) : List MailEvent :=
  (List.range n).map fun id => sendMail (errors id) id

theorem mails_succ (errors : Nat → Option QueueError) (n : Nat) :
    mails errors (n + 1) = mails errors n ++ [sendMail (errors n) n] := by
  rw [mails, mails, range_succ, map_append, map_singleton]

theorem mailedBelow_mails (errors : Nat → Option QueueError) (n : Nat) :
    EachStep mailServer.step FreshId unusedMail (mails errors n) ∧
      MailedBelow n (run mailServer.step unusedMail (mails errors n)) := by
  induction n with
  | zero => exact ⟨trivial, mailedBelow_unusedMail⟩
  | succ n ih =>
    obtain ⟨hfresh, hbelow⟩ := ih
    rw [mails_succ, eachStep_append, run_append]
    exact ⟨⟨hfresh, hbelow.freshId (errors n), trivial⟩, hbelow.send (errors n)⟩

theorem MailedBelow.length_filter (h : MailedBelow n s) (hm : m ≤ n) :
    ((s.mailbox ["main"] readerIdentity).filter fun a => a.id < m).length = m := by
  have hnodup : (((s.mailbox ["main"] readerIdentity).filter fun a => a.id < m).map MessageRecord.id).Nodup :=
    (h.inv.nodup_mailbox ["main"] readerIdentity).sublist (filter_sublist.map _)
  have hperm : (((s.mailbox ["main"] readerIdentity).filter fun a => a.id < m).map MessageRecord.id).Perm
      (List.range m) := by
    rw [perm_ext_iff_of_nodup hnodup nodup_range]
    intro id
    rw [List.mem_map, mem_range]
    constructor
    · rintro ⟨r, hr, rfl⟩
      exact of_decide_eq_true (mem_filter.1 hr).2
    intro hid
    obtain ⟨r, hr, rfl⟩ := h.mail id (hid.trans_le hm)
    exact ⟨r, mem_filter.2 ⟨hr, decide_eq_true hid⟩, rfl⟩
  rw [← length_map MessageRecord.id, hperm.length_eq, length_range]

theorem MailedBelow.covered (h : MailedBelow n s) (hn : n ≤ 200) : Covered s ["main"] readerIdentity := by
  intro r hr
  have hid : r.id < n := h.notes r.key r.row (mem_records.1 (mem_filter.1 hr).1)
  right
  rw [h.length_filter hid.le]
  exact hid.trans_le hn

/-- The only message is acknowledged although its enqueue failed. -/
theorem mailboxExact_oneMail : MailboxExact mailServer mailReader readerIdentity ["main"]
      (run mailServer.step unusedMail (mails (fun _ => some (.storage "disk full")) 1)) := by
  obtain ⟨hfresh, hbelow⟩ := mailedBelow_mails (fun _ => some (.storage "disk full")) 1
  exact (mailboxExact_iff_covered mailServer unusedMail noMessages_unusedMail _ hfresh mailReader
    readerIdentity ["main"] caller_mailReader).2 (hbelow.covered (by decide))

theorem not_covered_mails (hmany : 200 ≤ n) (herror : errors n = some e) :
    ¬ Covered (run mailServer.step unusedMail (mails errors (n + 1))) ["main"] readerIdentity := by
  intro hcover
  have hbelow := (mailedBelow_mails errors (n + 1)).2
  obtain ⟨r, hr, hid⟩ := hbelow.mail n (Nat.lt_succ_self n)
  have hjobs : (run mailServer.step unusedMail (mails errors (n + 1))).jobs =
      (run mailServer.step unusedMail (mails errors n)).jobs := by
    rw [mails_succ, run_append]
    exact jobs_of_enqueueError herror _ _ _
  rcases hcover r hr with hsome | hfew
  · rw [hid, hjobs, (mailedBelow_mails errors n).2.jobs n le_rfl] at hsome
    cases hsome
  · rw [hid, hbelow.length_filter (Nat.le_succ n)] at hfew
    exact absurd hmany (not_le.2 hfew)

/-- The storage fails when the delivery of message 200 is enqueued. -/
def diskFull (id : Nat) : Option QueueError := if id = 200 then some (.storage "disk full") else none

/-- Two hundred messages are sent, and one whose delivery is not enqueued: the poll shows the last one as
accepted, and it cannot be acknowledged. -/
theorem not_mailboxExact_mails :
    (∀ key row, unusedMail.vault.state.notes key = some row → row.section ≠ .messaging) ∧
      EachStep mailServer.step FreshId unusedMail (mails diskFull 201) ∧
      Caller mailServer mailReader readerIdentity ["main"] ∧
      ¬ MailboxExact mailServer mailReader readerIdentity ["main"]
        (run mailServer.step unusedMail (mails diskFull 201)) := by
  obtain ⟨hfresh, hbelow⟩ := mailedBelow_mails diskFull 201
  refine ⟨noMessages_unusedMail, hfresh, caller_mailReader, fun hexact => ?_⟩
  exact not_covered_mails le_rfl (if_pos rfl) (hbelow.inv.covered_of_exact caller_mailReader hexact)

/-- No message is lost and no acknowledgement undone, whatever the agents go on to do. -/
theorem MailInv.keepsMail_run {api : MailApi} {s : MailState} (h : MailInv api s) (es : List MailEvent)
    (hfresh : EachStep api.step FreshId s es) :
    (∀ vaults recipient, s.mailbox vaults recipient ⊆ (run api.step s es).mailbox vaults recipient) ∧
      ∀ id, s.delivered id = true → (run api.step s es).delivered id = true := by
  induction es generalizing s with
  | nil => exact ⟨fun _ _ => Subset.refl _, fun _ => id⟩
  | cons e es ih =>
    have hstep := h.step_cases hfresh.1
    obtain ⟨hbox, hdone⟩ := ih (hstep.mailInv h) hfresh.2
    exact ⟨fun _ _ _ hr => hbox _ _ (hstep.mem_mailbox hr), fun id hid => hdone id (hstep.delivered hid)⟩

def ackedMail : MailState :=
  run mailServer.step unusedMail (mails diskFull 1 ++ [.ack mailReader 0 ⟨1, 1⟩])

theorem keepsMail_ackedMail : ackedMail.delivered 0 = true ∧
    (run mailServer.step ackedMail [sendMail none 1]).delivered 0 = true ∧
    ackedMail.mailbox ["main"] readerIdentity ⊆
      (run mailServer.step ackedMail [sendMail none 1]).mailbox ["main"] readerIdentity := by
  have hbelow := (mailedBelow_mails diskFull 1).2
  have hdone : ackedMail.delivered 0 = true := by decide +kernel
  have hinv : MailInv mailServer ackedMail :=
    (hbelow.inv.step_cases (e := .ack mailReader 0 ⟨1, 1⟩) trivial).mailInv hbelow.inv
  have hfresh : FreshId ackedMail (sendMail none 1) := ⟨(hbelow.freshId none).1, by decide +kernel⟩
  obtain ⟨hbox, hkept⟩ := hinv.keepsMail_run [sendMail none 1] ⟨hfresh, trivial⟩
  exact ⟨hdone, hkept 0 hdone, hbox _ _⟩

end Gradatum.Access
