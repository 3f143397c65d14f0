import Gradatum.Access.Messaging
import Gradatum.Reasoning.Run

/-!
# Mailboxes

What a poll shows and what an acknowledgement answers.  A poll makes up for deliveries that are missing among
the first two hundred notes of the mailbox only.
-/

open Reasoning

namespace Gradatum.Access

open Notes List Option
open Queue (Ulid JobRecord JobRow JobTable JobStatus QueueError DeliveryRow getMany recordOf
  rowOfRecord)

open MailApi

/-! ## 1. Messages -/

def MailState.delivered (s : MailState) (id : Ulid) : Bool := (s.jobs.find? id).any (·.status = .done)

def MailState.mailbox (s : MailState) (vaults : List VaultId) (recipient : String) : List MessageRecord :=
  (records s.vault).filter (MessageRecord.inMailbox vaults recipient)

theorem mem_records : r ∈ records v ↔ v.state.notes r.key = some r.row := by
  rw [records, mem_filterMap]
  constructor
  · rintro ⟨key, -, hkey⟩
    rw [map_eq_some_iff] at hkey
    obtain ⟨row, hrow, rfl⟩ := hkey
    exact hrow
  · intro hrow
    exact ⟨r.key, v.covers _ _ hrow, by rw [hrow]; rfl⟩

theorem isSentinel_ulidText (id : Ulid) : isSentinel (ulidText id) = false := by
  have hdigs : ∀ d < 32, (crockford.getD d '0').toLower ≠ 'i' := by decide
  rw [isSentinel, Bool.and_eq_false_iff]
  right
  rw [decide_eq_false_iff_not, ulidText, String.toList_ofList]
  intro hsentinel
  have hltr := congrArg (·[4]?) hsentinel
  have hfourth : ((((List.range 26).reverse.map fun i =>
      crockford.getD (id / 32 ^ i % 32) '0').drop 2).take 8 |>.map Char.toLower)[4]? =
      some (crockford.getD (id / 32 ^ 19 % 32) '0').toLower := rfl
  have hi : "sentinel".toList[4]? = some 'i' := by decide
  rw [hfourth, hi] at hltr
  exact hdigs _ (Nat.mod_lt _ (by decide)) (Option.some.inj hltr)

structure Posted (api : MailApi) (s : MailState) (key : NoteKey) (row : NoteRow) : Prop where
  status : row.status ≠ .downgraded
  readable : ∃ note, api.server.vault.readNoteIn s.vault.state key.vault key.id = some note
  delivery : ∃ recipient, row.locus = some (messagingChannelLocus recipient).path ∧
    ∀ job, s.jobs.find? key.id = some job → DeliveryRow key.id recipient job

structure MailInv (api : MailApi) (s : MailState) : Prop where
  posted : ∀ key row, s.vault.state.notes key = some row → row.section = .messaging → Posted api s key row
  unique : ∀ key key' row row', s.vault.state.notes key = some row → row.section = .messaging →
    s.vault.state.notes key' = some row' → row'.section = .messaging → key.id = key'.id → key = key'

variable {api : MailApi} {s : MailState}

theorem MailInv.withJobs (h : MailInv api s)
    (hjobs : ∀ key row recipient, s.vault.state.notes key = some row → row.section = .messaging →
      row.locus = some (messagingChannelLocus recipient).path →
      (∀ job, s.jobs.find? key.id = some job → DeliveryRow key.id recipient job) →
      ∀ job, jobs.find? key.id = some job → DeliveryRow key.id recipient job) :
    MailInv api { s with jobs } where
  posted := by
    intro key row hrow hsec
    obtain ⟨hstat, hread, recipient, hlocus, hdeliv⟩ := h.posted key row hrow hsec
    exact ⟨hstat, hread, recipient, hlocus, hjobs key row recipient hrow hsec hlocus hdeliv⟩
  unique := h.unique

/-! ## 2. A send -/

section Send

variable {letter : Letter} {draw : SendDraw} {s' : MailState}

def MailApi.mailOf (api : MailApi) (letter : Letter) (draw : SendDraw) (s : VaultState) : Judged :=
  api.server.vault.judged draw.input (letter.frontmatter draw.now) letter.request.body draw.messageId none s

/-- The state after a send that wrote its note; its delivery is enqueued or it is not. -/
structure Mailed (api : MailApi) (letter : Letter) (draw : SendDraw) (s s' : MailState) : Prop where
  vault : s'.vault.state =
    api.server.vault.commit draw.input (api.mailOf letter draw s.vault.state) s.vault.state
  jobs : s'.jobs = s.jobs ∨ s'.jobs = (Queue.enqueue (buildMessageJobRecord draw.enqueuedAt draw.messageId
    letter.vault letter.request.recipientIdentity) s.jobs).2

theorem mailed_of_write (hltr : api.letterOf trust req = .ok letter)
    (hwrite : api.writeMail letter draw s.vault.state =
      (.ok note, api.server.vault.commit draw.input (api.mailOf letter draw s.vault.state) s.vault.state)) :
    Mailed api letter draw s (api.messageSend trust req draw s).2 := by
  have hvault : (api.withMail letter draw s.vault).state =
      api.server.vault.commit draw.input (api.mailOf letter draw s.vault.state) s.vault.state :=
    congrArg Prod.snd hwrite
  unfold messageSend
  rw [hltr]
  dsimp only
  rw [hwrite]
  dsimp only
  split
  · exact ⟨hvault, .inl rfl⟩
  split
  · rename_i hqueue
    exact ⟨hvault, .inr (congrArg Prod.snd hqueue).symm⟩
  · rename_i hqueue
    exact ⟨hvault, .inr (congrArg Prod.snd hqueue).symm⟩

theorem messageSend_cases (api : MailApi) (trust : TrustContext) (req : MessageSendRequest) (draw : SendDraw)
    (s : MailState) : (api.messageSend trust req draw s).2 = s ∨
      ∃ letter, Mailed api letter draw s (api.messageSend trust req draw s).2 := by
  cases hltr : api.letterOf trust req with
  | error e =>
    left
    rw [messageSend, hltr]
  | ok letter =>
    rcases Vault.writeNoteWithIdInternal_cases (v := api.server.vault) letter.vault draw.input
      (letter.frontmatter draw.now) letter.request.body draw.messageId s.vault.state with
      ⟨e, hreply⟩ | hreply
    · left
      simp only [messageSend, hltr, writeMail, hreply]
    · exact .inr ⟨letter, mailed_of_write hltr hreply⟩

theorem mailed_of_letterOf (hltr : api.letterOf trust req = .ok letter)
    (hmasks : api.server.vault.privacy.policy.masks = false) (draw : SendDraw) (s : MailState) :
    Mailed api letter draw s (api.messageSend trust req draw s).2 :=
  mailed_of_write hltr (Vault.writeNoteWithIdInternal_self hmasks draw.input
    (letter.frontmatter draw.now) letter.request.body draw.messageId s.vault.state)

theorem jobs_of_enqueueError (h : draw.enqueueError = some e) (trust : TrustContext)
    (req : MessageSendRequest) (s : MailState) : (api.messageSend trust req draw s).2.jobs = s.jobs := by
  unfold messageSend
  split
  · rfl
  split
  · rfl
  · rw [h]

namespace Mailed

section

variable (h : Mailed api letter draw s s')

include h

theorem notes_self (hfresh : ∀ vault, s.vault.state.notes ⟨vault, draw.messageId⟩ = none) :
    s'.vault.state.notes (api.mailKey letter draw) = some
      (rowOfNote api.server.vault.rolesOfBody (api.mailOf letter draw s.vault.state).note) := by
  have hself := Vault.commit_notes_self (v := api.server.vault) draw.input
    (api.mailOf letter draw s.vault.state) s.vault.state
  rw [h.vault]
  refine hself.trans ?_
  rw [mailOf, Vault.judged_id, hfresh]

theorem notes_of_ne (hkey : key ≠ api.mailKey letter draw) :
    s'.vault.state.notes key = s.vault.state.notes key := by
  rw [h.vault]
  exact Function.update_of_ne hkey _ _

theorem find?_of_ne {id : Ulid} (hid : id ≠ draw.messageId) :
    s'.jobs.find? id = s.jobs.find? id := by
  rcases h.jobs with hjobs | hjobs
  · rw [hjobs]
  rw [hjobs, Queue.find?_enqueue]
  cases s.jobs.find? id with
  | some job => rfl
  | none => exact if_neg (Ne.symm hid)

theorem delivery (hfresh : s.jobs.find? draw.messageId = none)
    (hjob : s'.jobs.find? draw.messageId = some job) :
    DeliveryRow draw.messageId letter.request.recipientIdentity job := by
  rcases h.jobs with hjobs | hjobs
  · rw [hjobs, hfresh] at hjob
    cases hjob
  rw [hjobs, Queue.find?_enqueue, hfresh] at hjob
  cases (if_pos rfl).symm.trans hjob
  exact ⟨⟨_, rfl, rfl, rfl⟩, rfl, .inl rfl⟩

theorem readable (hfresh : ∀ vault, s.vault.state.notes ⟨vault, draw.messageId⟩ = none) :
    api.server.vault.readNoteIn s'.vault.state (api.mailKey letter draw).vault draw.messageId =
      some (api.mailOf letter draw s.vault.state).note := by
  rw [h.vault]
  refine Vault.readNoteIn_commit draw.input rfl ?_
  intro row hrow
  rw [mailOf, Vault.judged_id, hfresh] at hrow
  cases hrow

theorem readNoteIn_of_ne {id : Ulid} (hid : id ≠ draw.messageId)
    (vault : VaultId) : api.server.vault.readNoteIn s'.vault.state vault id =
      api.server.vault.readNoteIn s.vault.state vault id := by
  rw [h.vault]
  exact Vault.readNoteIn_of_sameNote (Vault.sameNote_commit _ (.inr (Ne.symm hid)))

theorem mem_mailbox (hfresh : ∀ vault, s.vault.state.notes ⟨vault, draw.messageId⟩ = none)
    (hvault : (api.mailKey letter draw).vault ∈ vaults) :
    ⟨api.mailKey letter draw, rowOfNote api.server.vault.rolesOfBody
      (api.mailOf letter draw s.vault.state).note⟩ ∈ s'.mailbox vaults letter.request.recipientIdentity := by
  refine mem_filter.2 ⟨mem_records.2 (h.notes_self hfresh), ?_⟩
  simp only [MessageRecord.inMailbox, isSentinel_ulidText, Bool.and_eq_true, decide_eq_true_eq,
    contains_iff_mem, rowOfNote, mailOf, Vault.judged_frontmatter]
  exact ⟨⟨⟨⟨rfl, hvault⟩, rfl⟩, nofun⟩, rfl⟩

theorem mailInv (hinv : MailInv api s)
    (hnotes : ∀ vault, s.vault.state.notes ⟨vault, draw.messageId⟩ = none)
    (hjobs : s.jobs.find? draw.messageId = none) : MailInv api s' := by
  -- a row of the old state has another id than the new message
  have hold : ∀ key row, s'.vault.state.notes key = some row → key ≠ api.mailKey letter draw →
      s.vault.state.notes key = some row ∧ key.id ≠ draw.messageId := by
    intro key row hrow hkey
    rw [h.notes_of_ne hkey] at hrow
    refine ⟨hrow, fun hid => ?_⟩
    have hnone := hnotes key.vault
    rw [← hid, hrow] at hnone
    cases hnone
  constructor
  case posted =>
    intro key row hrow hsec
    by_cases hkey : key = api.mailKey letter draw
    · subst hkey
      rw [h.notes_self hnotes] at hrow
      cases hrow
      have hfm := Vault.judged_frontmatter (v := api.server.vault) draw.input
        (letter.frontmatter draw.now) letter.request.body draw.messageId none s.vault.state
      refine ⟨?_, ⟨_, h.readable hnotes⟩, letter.request.recipientIdentity, ?_, fun job => h.delivery hjobs⟩
      · simp only [rowOfNote, mailOf, hfm]
        nofun
      · simp only [rowOfNote, mailOf, hfm]
        rfl
    · obtain ⟨hrow, hid⟩ := hold key row hrow hkey
      obtain ⟨hstat, hread, recipient, hlocus, hdeliv⟩ := hinv.posted key row hrow hsec
      refine ⟨hstat, ?_, recipient, hlocus, ?_⟩
      · rw [h.readNoteIn_of_ne hid]
        exact hread
      · rw [h.find?_of_ne hid]
        exact hdeliv
  case unique =>
    intro key key' row row' hrow hsec hrow' hsection' hids
    by_cases hkey : key = api.mailKey letter draw
    · by_contra hne
      have hkey' : key' ≠ api.mailKey letter draw := fun heq => hne (hkey.trans heq.symm)
      refine (hold key' row' hrow' hkey').2 (hids.symm.trans ?_)
      rw [hkey]
      rfl
    · have hkey' : key' ≠ api.mailKey letter draw := by
        rintro rfl
        exact (hold key row hrow hkey).2 hids
      exact hinv.unique key key' row row' (hold key row hrow hkey).1 hsec (hold key' row' hrow' hkey').1
        hsection' hids

end

end Mailed

end Send

/-! ## 3. A reconciliation -/

section Reconcile

variable {recipient : String} {found : List MessageRecord}

theorem recreate_cons (r : MessageRecord) (n m : Nat) (jobs : JobTable) :
    (recreateDeliveries now recipient existing (r :: found) n jobs).2 =
      if (recordOf existing r.id).isSome then (recreateDeliveries now recipient existing found m jobs).2
      else (recreateDeliveries now recipient existing found m
        (Queue.enqueue (buildMessageJobRecord now r.id r.key.vault recipient) jobs).2).2 := by
  have hcount : ∀ (found : List MessageRecord) (n m : Nat) (jobs : JobTable),
      (recreateDeliveries now recipient existing found n jobs).2 =
        (recreateDeliveries now recipient existing found m jobs).2 := by
    intro found
    induction found with
    | nil => exact fun _ _ _ => rfl
    | cons r found ih =>
      intro n m jobs
      rw [recreateDeliveries, recreateDeliveries]
      split
      · exact ih n m jobs
      split
      · exact ih _ _ _
      · exact ih _ _ _
  rw [recreateDeliveries]
  split
  · exact hcount found n m jobs
  split
  · rename_i hqueue
    rw [hqueue]
    exact hcount found _ m _
  rename_i hqueue
  rw [hqueue]
  exact hcount found _ m _

variable {id : Ulid} {job : JobRow}

theorem find?_recreate_of_some (h : jobs.find? id = some job) :
    (recreateDeliveries now recipient existing found 0 jobs).2.find? id = some job := by
  induction found generalizing jobs with
  | nil => exact h
  | cons r found ih =>
    rw [recreate_cons r 0 0]
    split
    · exact ih h
    · refine ih ?_
      rw [Queue.find?_enqueue, h]

theorem added_of_find?_recreate (hnone : jobs.find? id = none)
    (h : (recreateDeliveries now recipient existing found 0 jobs).2.find? id = some job) :
    (∃ r ∈ found, r.id = id) ∧ DeliveryRow id recipient job ∧ job.status = .pending := by
  induction found generalizing jobs with
  | nil =>
    rw [recreateDeliveries, hnone] at h
    cases h
  | cons r found ih =>
    have hlater : (∃ r ∈ found, r.id = id) → ∃ r' ∈ r :: found, r'.id = id :=
      fun ⟨r', hr', hid⟩ => ⟨r', mem_cons_of_mem _ hr', hid⟩
    rw [recreate_cons r 0 0] at h
    split at h
    · exact (ih hnone h).imp_left hlater
    by_cases hid : r.id = id
    · -- the job is there after the record was looked at
      have hnew : (Queue.enqueue (buildMessageJobRecord now r.id r.key.vault recipient) jobs).2.find? id =
          some (rowOfRecord (buildMessageJobRecord now r.id r.key.vault recipient)) := by
        rw [Queue.find?_enqueue, hnone]
        exact if_pos hid
      rw [find?_recreate_of_some hnew] at h
      cases h
      subst hid
      exact ⟨⟨r, mem_cons_self, rfl⟩, ⟨⟨_, rfl, rfl, rfl⟩, rfl, .inl rfl⟩, rfl⟩
    · have hnone' : (Queue.enqueue (buildMessageJobRecord now r.id r.key.vault recipient) jobs).2.find? id =
          none := by
        rw [Queue.find?_enqueue, hnone]
        exact if_neg hid
      exact (ih hnone' h).imp_left hlater

theorem exists_find?_recreate
    (hex : ∀ r ∈ found, (recordOf existing r.id).isSome = true → ∃ job, jobs.find? r.id = some job) :
    ∀ r ∈ found, ∃ job, (recreateDeliveries now recipient existing found 0 jobs).2.find? r.id = some job := by
  induction found generalizing jobs with
  | nil => exact fun _ hr => absurd hr not_mem_nil
  | cons first found ih =>
    rw [forall_mem_cons] at hex ⊢
    rw [recreate_cons first 0 0]
    split
    · rename_i hknown
      refine ⟨?_, ih hex.2⟩
      obtain ⟨job, hjob⟩ := hex.1 hknown
      exact ⟨job, find?_recreate_of_some hjob⟩
    · have hnow : ∃ job, (Queue.enqueue (buildMessageJobRecord now first.id first.key.vault recipient)
          jobs).2.find? first.id = some job := by
        rw [Queue.find?_enqueue]
        cases jobs.find? first.id with
        | some job => exact ⟨job, rfl⟩
        | none => exact ⟨_, if_pos rfl⟩
      refine ⟨?_, ih fun r hr hknown => ?_⟩
      · obtain ⟨job, hjob⟩ := hnow
        exact ⟨job, find?_recreate_of_some hjob⟩
      · obtain ⟨job, hjob⟩ := hex.2 r hr hknown
        exact ⟨job, by rw [Queue.find?_enqueue, hjob]⟩

structure Reconciled (recipient : String) (found : List MessageRecord) (s s' : MailState) : Prop where
  vault : s'.vault = s.vault
  kept : ∀ id job, s.jobs.find? id = some job → s'.jobs.find? id = some job
  added : ∀ id job, s.jobs.find? id = none → s'.jobs.find? id = some job →
    (∃ r ∈ found, r.id = id) ∧ DeliveryRow id recipient job ∧ job.status = .pending
  reached : ∀ r ∈ found, ∃ job, s'.jobs.find? r.id = some job

theorem mem_listMessagingNotes (h : r ∈ listMessagingNotes v vaults recipient limit cursor) :
    r ∈ records v ∧ r.inMailbox vaults recipient = true := by
  rw [listMessagingNotes, keysetQuery, filter_true] at h
  have hsort := mem_sortByKey.1 (mem_of_mem_take h)
  rw [afterCursor] at hsort
  exact mem_filter.1 (mem_filter.1 hsort).1

theorem message_of_inMailbox {r : MessageRecord} (h : r.inMailbox vaults recipient = true) :
    r.row.section = .messaging ∧ r.key.vault ∈ vaults ∧
      r.row.locus = some (messagingChannelLocus recipient).path := by
  simp only [MessageRecord.inMailbox, Bool.and_eq_true, decide_eq_true_eq, contains_iff_mem] at h
  exact ⟨h.1.1.1.1, h.1.1.1.2, h.1.1.2⟩

theorem MailInv.getMany_ok (h : MailInv api s) (hfound : ∀ r ∈ found, r ∈ records s.vault ∧
    r.row.section = .messaging) : ∃ jobs, getMany (found.map MessageRecord.id) none s.jobs = .ok jobs ∧
      ∀ r ∈ found, (recordOf jobs r.id).map (·.lifecycle.status) = (s.jobs.find? r.id).map (·.status) := by
  have hrows : ∀ id ∈ found.map MessageRecord.id, ∀ row, s.jobs.find? id = some row →
      ∃ record, row.payload = .json record ∧ record.id = row.id := by
    intro id hid row hrow
    obtain ⟨r, hr, rfl⟩ := List.mem_map.1 hid
    obtain ⟨hrec, hsec⟩ := hfound r hr
    obtain ⟨-, -, recipient, -, hdeliv⟩ := h.posted r.key r.row (mem_records.1 hrec) hsec
    obtain ⟨record, hpay, hrecordId, -⟩ := (hdeliv row hrow).payload
    exact ⟨record, hpay, hrecordId⟩
  obtain ⟨jobs, hjobs, hstats⟩ := Queue.getMany_ok hrows
  exact ⟨jobs, hjobs, fun r hr => hstats r.id (List.mem_map_of_mem hr)⟩

theorem MailInv.reconcile (h : MailInv api s) (now : Instant) (vaults : List VaultId) (recipient : String) :
    ∃ n s', s.reconcileDeliveryJobs now vaults recipient = (.ok n, s') ∧
      Reconciled recipient (listMessagingNotes s.vault vaults recipient 200 none) s s' := by
  have hfound : ∀ r ∈ listMessagingNotes s.vault vaults recipient 200 none,
      r ∈ records s.vault ∧ r.row.section = .messaging := by
    intro r hr
    obtain ⟨hrec, hmail⟩ := mem_listMessagingNotes hr
    exact ⟨hrec, (message_of_inMailbox hmail).1⟩
  obtain ⟨existing, hex, hstats⟩ := h.getMany_ok hfound
  refine ⟨_, _, by rw [MailState.reconcileDeliveryJobs, hex], ?_⟩
  constructor
  case vault => rfl
  case kept => exact fun id job hjob => find?_recreate_of_some hjob
  case added => exact fun id job hnone hjob => added_of_find?_recreate hnone hjob
  case reached =>
    refine exists_find?_recreate fun r hr hknown => ?_
    have hstat := hstats r hr
    obtain ⟨record, hrec⟩ := isSome_iff_exists.1 hknown
    rw [hrec, map_some, eq_comm, map_eq_some_iff] at hstat
    obtain ⟨job, hjob, -⟩ := hstat
    exact ⟨job, hjob⟩

namespace Reconciled

theorem delivered_eq (h : Reconciled recipient found s s') (id : Ulid) : s'.delivered id = s.delivered id := by
  unfold MailState.delivered
  cases hjob : s.jobs.find? id with
  | some job => rw [h.kept id job hjob]
  | none =>
    cases hjob' : s'.jobs.find? id with
    | none => rfl
    | some job =>
      obtain ⟨-, -, hpend⟩ := h.added id job hjob hjob'
      simp [hpend]

theorem mailInv (h : Reconciled recipient found s s') (hinv : MailInv api s)
    (hfound : ∀ r ∈ found, r ∈ records s.vault ∧ r.inMailbox vaults recipient = true) :
    MailInv api s' := by
  have hstate : s' = { s with jobs := s'.jobs } := by
    cases s'
    cases h.vault
    rfl
  rw [hstate]
  refine hinv.withJobs ?_
  intro key row recipient' hrow hsec hlocus hdeliv job hjob
  cases hold : s.jobs.find? key.id with
  | some old =>
    rw [h.kept key.id old hold] at hjob
    cases hjob
    exact hdeliv job hold
  | none =>
    obtain ⟨⟨r, hr, hid⟩, hnew, -⟩ := h.added key.id job hold hjob
    obtain ⟨hrec, hmail⟩ := hfound r hr
    obtain ⟨hmes, -, hchan⟩ := message_of_inMailbox hmail
    -- it is the message that was found
    have hkey := hinv.unique r.key key r.row row (mem_records.1 hrec) hmes hrow hsec hid
    have hrows : some r.row = some row := by
      rw [← mem_records.1 hrec, hkey, hrow]
    cases hrows
    have hrecip := messagingChannelLocus_inj (Option.some.inj (hchan.symm.trans hlocus))
    rw [← hrecip]
    exact hnew

end Reconciled

end Reconcile

/-! ## 4. A poll -/

structure Caller (api : MailApi) (trust : TrustContext) (recipient : String) (vaults : List VaultId) :
    Prop where
  identity : creditedAgentIdentity trust = some recipient
  reads : api.readableMessagingVaults trust = .ok vaults
  handles : ∀ vault ∈ vaults, api.handles vault = true

theorem isAuthenticated_of_identity (h : creditedAgentIdentity trust = some recipient) :
    trust.isAuthenticated = true := by
  cases trust with
  | bearerToken sub scopes tenant => rfl
  | unauthenticated | mtls cn | studio user => cases h

/-- The rows that a poll looks at, in the order of their ids. -/
def MailState.sortedMailbox (s : MailState) (vaults : List VaultId) (recipient : String) :
    List MessageRecord :=
  sortByKey ulidPrecedes MessageRecord.id (s.mailbox vaults recipient)

def MailState.page (s : MailState) (filter : MessagePollStatus) (vaults : List VaultId) (recipient : String)
    (limit : Nat) (cursor : Option Ulid) : Page MessageRecord Ulid :=
  let want := max 1 (min messagePollPageMax limit)
  fillWithin want (fun r => filter.selects (s.delivered r.id)) MessageRecord.id
    (listMessagingNotes s.vault vaults recipient want) messagePollMaxPages cursor []

theorem strictOrder_ulidPrecedes : StrictOrder ulidPrecedes where
  asymm a b h := by
    rw [ulidPrecedes, decide_eq_true_eq] at h
    rw [ulidPrecedes, decide_eq_false_iff_not]
    exact Nat.lt_asymm h
  trans a b c hab hbc := by
    rw [ulidPrecedes, decide_eq_true_eq] at hab hbc ⊢
    exact Nat.lt_trans hab hbc
  eq_of_neither a b hab hba := by
    rw [ulidPrecedes, decide_eq_false_iff_not] at hab hba
    exact Nat.le_antisymm (Nat.not_lt.1 hba) (Nat.not_lt.1 hab)

section Poll

variable {filter : MessagePollStatus}

theorem Caller.inboxOf_eq (h : Caller api trust recipient vaults)
    (hstat : MessagePollStatus.parse status = some filter) :
    api.inboxOf trust status = .ok ⟨recipient, filter, vaults⟩ := by
  rw [inboxOf, isAuthenticated_of_identity h.identity, h.identity, hstat, h.reads]
  rfl

theorem Caller.reader (h : Caller api trust recipient vaults) (hvault : vault ∈ vaults) :
    ∃ reader, api.readBackReader vault = .ok reader ∧
      ∀ s id, reader.readNote s id = api.server.vault.readNoteIn s vault id := by
  have hvaults := h.reads
  unfold readableMessagingVaults at hvaults
  rw [Api.readBackReader]
  cases hmode : api.policy.multiTenant with
  | false =>
    rw [hmode] at hvaults
    cases hvaults
    rw [mem_singleton.1 hvault, ← api.servesMain]
    exact ⟨_, rfl, fun _ _ => rfl⟩
  | true =>
    rw [h.handles vault hvault]
    exact ⟨_, rfl, fun _ _ => rfl⟩

theorem messageId_of_envelope (h : api.envelope v recipient r = some m) : m.messageId = r.id := by
  rw [envelope, map_eq_some_iff] at h
  obtain ⟨note, -, rfl⟩ := h
  rfl

theorem MailInv.isSome_envelope (h : MailInv api s) (hcall : Caller api trust recipient vaults)
    (hrec : r ∈ records s.vault) (hmail : r.inMailbox vaults recipient = true) :
    (api.envelope s.vault.state recipient r).isSome = true := by
  obtain ⟨hsec, hvault, -⟩ := message_of_inMailbox hmail
  obtain ⟨reader, hreader, hreads⟩ := hcall.reader hvault
  obtain ⟨note, hnote⟩ := (h.posted r.key r.row (mem_records.1 hrec) hsec).readable
  have hread : reader.readNote s.vault.state r.id = some note := (hreads _ _).trans hnote
  rw [envelope, hreader, isSome_map]
  simp only [Except.toOption, bind_some, hread, isSome_some]

theorem exists_mapM_ok {α β ε : Type} {f : α → Except ε β} {xs : List α}
    (h : ∀ x ∈ xs, ∃ y, f x = .ok y) : ∃ ys, xs.mapM f = .ok ys := by
  induction xs with
  | nil => exact ⟨[], rfl⟩
  | cons x xs ih =>
    rw [forall_mem_cons] at h
    obtain ⟨y, hy⟩ := h.1
    obtain ⟨ys, hys⟩ := ih h.2
    refine ⟨y :: ys, ?_⟩
    rw [mapM_cons, hy, hys]
    rfl

theorem MailInv.pollPages_eq (h : MailInv api s) (hcall : Caller api trust recipient vaults)
    (filter : MessagePollStatus) (want rounds : Nat) (cursor : Option Ulid) (messages : List MessageRecord) :
    api.pollPages ⟨recipient, filter, vaults⟩ want s rounds cursor messages =
      .ok (fillWithin want (fun r => filter.selects (s.delivered r.id)) MessageRecord.id
        (listMessagingNotes s.vault vaults recipient want) rounds cursor messages) := by
  induction rounds generalizing cursor messages with
  | zero => rfl
  | succ rounds ih =>
    have hfound := fun r (hr : r ∈ listMessagingNotes s.vault vaults recipient want cursor) =>
      mem_listMessagingNotes hr
    obtain ⟨jobs, hjobs, hstats⟩ := h.getMany_ok fun r hr =>
      ⟨(hfound r hr).1, (message_of_inMailbox (hfound r hr).2).1⟩
    obtain ⟨readers, hreaders⟩ := exists_mapM_ok fun r
        (hr : r ∈ listMessagingNotes s.vault vaults recipient want cursor) =>
      (hcall.reader (message_of_inMailbox (hfound r hr).2).2.1).imp fun _ hreader => hreader.1
    have hshows : ∀ r ∈ listMessagingNotes s.vault vaults recipient want cursor,
        api.shows s.vault.state ⟨recipient, filter, vaults⟩ jobs r = filter.selects (s.delivered r.id) := by
      intro r hr
      have hdone := congrArg (Option.any (· = JobStatus.done)) (hstats r hr)
      rw [Option.any_map, Option.any_map] at hdone
      rw [shows, h.isSome_envelope hcall (hfound r hr).1 (hfound r hr).2, Bool.and_true,
        MailState.delivered]
      exact congrArg filter.selects hdone
    rw [pollPages, hjobs, fillWithin, ← scan_congr hshows messages]
    simp only [Except.mapError, bind, Except.bind, hreaders, pure, Except.pure]
    rw [ih, apply_ite Except.ok, apply_ite Except.ok]

theorem listMessagingNotes_nil (v : IndexedVault) (recipient : String) (limit : Nat) (cursor : Option Ulid) :
    listMessagingNotes v [] recipient limit cursor = [] := by
  rw [eq_nil_iff_forall_not_mem]
  intro r hr
  exact absurd (message_of_inMailbox (mem_listMessagingNotes hr).2).2.1 not_mem_nil

theorem MailInv.messagePoll_eq (h : MailInv api s) (hcall : Caller api trust recipient vaults)
    (hstat : MessagePollStatus.parse status = some filter) (limit : Nat) (cursor : Option Ulid)
    (now : Instant) : ∃ s', api.messagePoll trust status limit cursor now s =
        (.ok ⟨(s.page filter vaults recipient limit cursor).items.filterMap
          (api.envelope s.vault.state recipient), (s.page filter vaults recipient limit cursor).next⟩, s') ∧
      Reconciled recipient (listMessagingNotes s.vault vaults recipient 200 none) s s' := by
  rw [messagePoll, hcall.inboxOf_eq hstat]
  dsimp only
  split
  · rename_i hnone
    subst hnone
    have hpage : s.page filter [] recipient limit cursor = ⟨[], none⟩ := by
      have hwant : 0 < max 1 (min messagePollPageMax limit) := by omega
      rw [MailState.page, messagePollMaxPages, fillWithin, listMessagingNotes_nil, scan]
      dsimp only
      rw [if_neg (by rw [length_nil]; omega), if_pos (by rw [length_nil]; omega)]
    refine ⟨s, by rw [hpage]; rfl, ?_⟩
    rw [listMessagingNotes_nil]
    refine ⟨rfl, fun _ _ hjob => hjob, fun id job hjob hjob' => ?_, fun r hr => absurd hr not_mem_nil⟩
    rw [hjob] at hjob'
    cases hjob'
  · obtain ⟨n, s', hreconcile, hrecon⟩ := h.reconcile now vaults recipient
    refine ⟨s', ?_, hrecon⟩
    have hinv := hrecon.mailInv h fun r hr => mem_listMessagingNotes hr
    rw [hreconcile]
    dsimp only
    rw [hinv.pollPages_eq hcall, hrecon.vault]
    simp only [hrecon.delivered_eq]
    rfl

theorem mem_page (h : r ∈ (s.page filter vaults recipient limit cursor).items) :
    r ∈ s.mailbox vaults recipient ∧ filter.selects (s.delivered r.id) = true := by
  have hroom : ([] : List MessageRecord).length < max 1 (min messagePollPageMax limit) := by
    rw [length_nil]
    omega
  rcases mem_fillWithin h hroom with hnil | ⟨hsel, c, hlist⟩
  · cases hnil
  · exact ⟨mem_filter.2 (mem_listMessagingNotes hlist), hsel⟩

theorem MailInv.nodup_mailbox (h : MailInv api s) (vaults : List VaultId) (recipient : String) :
    ((s.mailbox vaults recipient).map MessageRecord.id).Nodup := by
  have hkeys : ((records s.vault).map MessageRecord.key).Nodup := by
    rw [records, map_filterMap]
    refine s.vault.nodup.filterMap fun key key' found hfound hfound' => ?_
    simp only [Option.map_map, mem_def, map_eq_some_iff, Function.comp_apply] at hfound hfound'
    obtain ⟨-, -, hkey⟩ := hfound
    obtain ⟨-, -, hkey'⟩ := hfound'
    exact hkey.trans hkey'.symm
  rw [List.Nodup, pairwise_map] at hkeys ⊢
  refine (hkeys.sublist filter_sublist).imp_of_mem ?_
  intro a b ha hb hne hid
  obtain ⟨harecord, hamailbox⟩ := mem_filter.1 ha
  obtain ⟨hbrecord, hbmailbox⟩ := mem_filter.1 hb
  exact hne (h.unique a.key b.key a.row b.row (mem_records.1 harecord) (message_of_inMailbox hamailbox).1
    (mem_records.1 hbrecord) (message_of_inMailbox hbmailbox).1 hid)

theorem MailInv.serves (h : MailInv api s) (vaults : List VaultId) (recipient : String) (limit : Nat) :
    Serves (max 1 (min 200 limit)) (fun _ => true) MessageRecord.id (s.sortedMailbox vaults recipient)
      (listMessagingNotes s.vault vaults recipient limit) :=
  strictOrder_ulidPrecedes.serves_keysetQuery (h.nodup_mailbox vaults recipient)

theorem MailInv.mem_listMessagingNotes_iff (h : MailInv api s) (hr : r ∈ s.mailbox vaults recipient) :
    r ∈ listMessagingNotes s.vault vaults recipient 200 none ↔
      ((s.mailbox vaults recipient).filter fun a => a.id < r.id).length < 200 := by
  have hsort := strictOrder_ulidPrecedes.pairwise_sortByKey (h.nodup_mailbox vaults recipient)
  have hmem : r ∈ sortByKey ulidPrecedes MessageRecord.id (s.mailbox vaults recipient) := mem_sortByKey.2 hr
  rw [h.serves vaults recipient 200 none _ .start, filter_true, MailState.sortedMailbox,
    strictOrder_ulidPrecedes.mem_take_iff hsort hmem]
  have hperm := (perm_insertionSort (fun a b : MessageRecord => ulidPrecedes b.id a.id = false)
    (s.mailbox vaults recipient)).filter fun a => ulidPrecedes a.id r.id
  rw [sortByKey, hperm.length_eq]
  rfl

end Poll

end Gradatum.Access
