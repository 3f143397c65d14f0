import Gradatum.Notes.Note
import Gradatum.Reasoning.Redact

/-!
# The privacy decision of a write

`verdict` turns a detection pass into a block of the extra table and into decisions on two reserved tags, and
`decide_privacy` brings them together with what the note already carried.  The detector and SHA-256 are
parameters.
-/

open Reasoning

namespace Gradatum.Notes

/-! ## 1. Passes -/

inductive PiiCategory where
  | accountNumber
  | address
  | email
  | person
  | phone
  | url
  | date
  | secret
  deriving DecidableEq

def PiiCategory.asStr : PiiCategory → String
  | .accountNumber => "account_number"
  | .address => "address"
  | .email => "email"
  | .person => "person"
  | .phone => "phone"
  | .url => "url"
  | .date => "date"
  | .secret => "secret"

def PiiCategory.sorted : List PiiCategory :=
  [.accountNumber, .address, .date, .email, .person, .phone, .secret, .url]

structure PiiSpan where
  start : Nat
  len : Nat
  category : PiiCategory
  scoreM : Nat
  deriving DecidableEq

inductive ScanStatus where
  | ok
  | detectorUnavailable
  | inputTooLarge
  | spansTruncated
  deriving DecidableEq

def ScanStatus.asStr : ScanStatus → String
  | .ok => "ok"
  | .detectorUnavailable => "detector_unavailable"
  | .inputTooLarge => "input_too_large"
  | .spansTruncated => "spans_truncated"

def ScanStatus.isUnscanned (status : ScanStatus) : Bool := status != .ok

structure PassOutcome where
  status : ScanStatus
  spans : List PiiSpan

structure DetectorIdentity where
  detector : String
  modelDigest : String
  modelSource : String
  mappingV : Nat
  sidecarV : String
  scoreMode : String

structure PrivacyPolicy where
  masks : Bool
  thresholdM : PiiCategory → Option Nat

def PrivacyPolicy.marks (policy : PrivacyPolicy) (span : PiiSpan) : Bool :=
  (policy.thresholdM span.category).any fun threshold =>
    decide (0 < threshold) && decide (threshold ≤ span.scoreM)

structure PrivacySettings where
  identity : Option DetectorIdentity
  policy : PrivacyPolicy
  /-- `policy_digest` of the identity, the budgets and the policy. -/
  policyDigest : String
  /-- The digest of a text, in hexadecimal digits. -/
  sha256 : String → String

def maskFiller : String := "[redacted]"

def PiiSpan.end (span : PiiSpan) : Nat := span.start + span.len

def maskSpans (body : String) (spans : List PiiSpan) : String :=
  String.ofList (overwrite Char.utf8Size maskFiller.toList (spans.map fun span => (span.start, span.end))
    body.toList)

def PiiSpan.le (a b : PiiSpan) : Bool :=
  decide (a.start < b.start ∨ a.start = b.start ∧ (a.end < b.end ∨ a.end = b.end ∧
    ¬ b.category.asStr < a.category.asStr))

def PiiSpan.line (span : PiiSpan) : String :=
  toString span.start ++ ":" ++ toString span.end ++ ":" ++ span.category.asStr ++ "\n"

/-- The scores are not in it. -/
def PrivacySettings.spansDigest (settings : PrivacySettings) (spans : List PiiSpan) : String :=
  "sha256:" ++ settings.sha256 (String.join ((spans.mergeSort PiiSpan.le).map PiiSpan.line))

/-! ## 2. The block -/

def blockKey : String := "privacy"

def unscannedTag : Tag := "privacy-unscanned"

def classifiedTag : Tag := "personal-classified"

def isReserved (tag : Tag) : Bool := tag == classifiedTag || tag == unscannedTag

/-- Every run of other characters becomes one dash, none at the ends.  `pending` is a run after a kept
character. -/
def coerceFrom (kept pending : Bool) : List Char → List Char
  | [] => []
  | c :: rest =>
    if c.isLower || c.isDigit then
      if pending then '-' :: c :: coerceFrom true false rest else c :: coerceFrom true false rest
    else coerceFrom kept kept rest

def coerceTag (text : String) : String :=
  String.ofList (coerceFrom false false (text.toList.map Char.toLower))

/-- `Tag::new` takes the text. -/
def isTag (text : String) : Bool :=
  text ≠ "" && text.utf8ByteSize ≤ 64 && !isReserved (coerceTag text) &&
    text.toList.head?.any (fun c => c.isLower || c.isDigit) &&
    text.toList.all fun c => c.isLower || c.isDigit || c = '-'

def maxSpans : Nat := 256

inductive Review where
  | pending
  | accepted
  | rejected
  deriving DecidableEq

def Review.asStr : Review → String
  | .pending => "pending"
  | .accepted => "accepted"
  | .rejected => "rejected"

def Review.of (block : Toml) : Review :=
  match (block.get? "review").bind Toml.asStr? with
  | some "accepted" => .accepted
  | some "rejected" => .rejected
  | _ => .pending

def digestOf (block : Toml) : Option String := (block.get? "spans_digest").bind Toml.asStr?

def spanValue (span : PiiSpan) : Toml :=
  .table [("category", .text span.category.asStr), ("len", .int span.len),
    ("score_m", .int span.scoreM), ("start", .int span.start)]

/-- Over every span of the pass, also those past the ceiling. -/
def counts (spans : List PiiSpan) : List (String × Toml) :=
  PiiCategory.sorted.filterMap fun category =>
    match spans.countP (·.category = category) with
    | 0 => none
    | n => some (category.asStr, .int n)

structure Block where
  value : Toml
  unscanned : Bool

namespace PrivacySettings

variable (settings : PrivacySettings)

def block (identity : DetectorIdentity) (status : ScanStatus) (spans : List PiiSpan)
    (scannedAt : String) (review : Review) : Block :=
  let status := if status = .ok ∧ maxSpans < spans.length then .spansTruncated else status
  let carried := spans.take maxSpans
  { value := .table
      [("counts", .table (counts spans)),
       ("detector", .text identity.detector),
       ("mapping_v", .int identity.mappingV),
       ("mode", .text (if settings.policy.masks then "mask" else "report_only")),
       ("model_digest", .text identity.modelDigest),
       ("model_source", .text identity.modelSource),
       ("policy", .text settings.policyDigest),
       ("review", .text review.asStr),
       ("scanned_at", .text scannedAt),
       ("score_mode", .text identity.scoreMode),
       ("sidecar_v", .text identity.sidecarV),
       ("spans", .array (if settings.policy.masks then [] else carried.map spanValue)),
       ("spans_digest", .text (settings.spansDigest carried)),
       ("status", .text status.asStr),
       ("v", .int 1)]
    unscanned := status.isUnscanned }

end PrivacySettings

/-! ## 3. Tags -/

inductive TagAction where
  | pose
  | retire
  | keep
  deriving DecidableEq

def applyReservedTag (tags : List Tag) (reserved : Tag) : TagAction → List Tag
  | .keep => tags
  | .pose => if reserved ∈ tags then tags else tags ++ [reserved]
  | .retire => tags.filter (· ≠ reserved)

def bindsTheTag (block : Toml) (previous : Option Toml) : Bool :=
  decide (Review.of block = .rejected) && decide (digestOf block = previous.bind digestOf)

def movesOnlyTheReview : Toml → Toml → Bool
  | .table incoming, .table recorded =>
    incoming.length == recorded.length &&
      incoming.all fun (key, value) => key == "review" || recorded.lookup key == some value
  | _, _ => false

structure Verdict where
  block : Toml
  classified : TagAction
  unscanned : TagAction

def markable (spans : List PiiSpan) (policy : PrivacyPolicy) : Bool := spans.any policy.marks

namespace PrivacySettings

variable (settings : PrivacySettings)

def verdict (identity : DetectorIdentity) (outcome : PassOutcome) (scannedAt : String)
    (previous : Option Toml) : Verdict :=
  let digest := settings.spansDigest (outcome.spans.take maxSpans)
  -- a review is about spans, and ends with them
  let review := match previous with
    | some prev => if digestOf prev = some digest then Review.of prev else .pending
    | none => .pending
  let built := settings.block identity outcome.status outcome.spans scannedAt review
  { block := built.value
    classified :=
      if review = .rejected then .retire
      -- an incomplete pass has no say on what is personal data
      else if built.unscanned then .keep
      else if markable outcome.spans settings.policy then .pose
      else .retire
    unscanned := if built.unscanned then .pose else .retire }

/-! ## 4. The decision -/

variable (existing : Option Note)

/-- Entries of the previous extra table that the write does not bring survive it. -/
def carryExtra (extra : ExtraFields) : ExtraFields :=
  match existing with
  | none => extra
  | some prev => fun key => (extra key).or (prev.frontmatter.extra key)

def carryTags (binds : Bool) (tags : List Tag) : List Tag :=
  match existing with
  | none => tags
  | some prev =>
    prev.frontmatter.tags.foldl
      (fun tags tag =>
        if !isReserved tag || (binds && tag == classifiedTag) || tags.contains tag then tags
        else tags ++ [tag])
      tags

def previousBlock : Option Toml :=
  existing.bind fun prev => prev.frontmatter.extra blockKey

def binds : Bool :=
  (previousBlock existing).any fun block => bindsTheTag block (previousBlock existing)

/-- The block whose review the pass resolves: the incoming one only if it moves nothing but the
review of the recorded one. -/
def carriedBlock (extra : ExtraFields) : Option Toml :=
  match extra blockKey with
  | some incoming =>
    if (previousBlock existing).any (movesOnlyTheReview incoming) then some incoming
    else previousBlock existing
  | none => previousBlock existing

def decideTagsAndExtra (scannedAt : String) (tags : List Tag) (extra : ExtraFields)
    (existing : Option Note) (outcome : Option PassOutcome) : List Tag × ExtraFields :=
  let extra := carryExtra existing extra
  let tags := carryTags existing (binds existing) tags
  match outcome, settings.identity with
  | some outcome, some identity =>
    -- the block the caller sent is overwritten by the one of the pass
    let decided := settings.verdict identity outcome scannedAt (carriedBlock existing extra)
    (applyReservedTag (applyReservedTag tags unscannedTag decided.unscanned)
        classifiedTag decided.classified,
      extra.insert blockKey decided.block)
  -- without a pass only the rejection acts, even if the caller has just set the tag again
  | _, _ => (if binds existing then applyReservedTag tags classifiedTag .retire else tags, extra)

def decidePrivacy (scannedAt : String) (frontmatter : Frontmatter) (existing : Option Note)
    (outcome : Option PassOutcome) : Frontmatter :=
  let decided :=
    settings.decideTagsAndExtra scannedAt frontmatter.tags frontmatter.extra existing outcome
  { frontmatter with tags := decided.1, extra := decided.2 }

def maskedBody (body : String) (outcome : Option PassOutcome) : String × Bool :=
  match outcome with
  | none => (body, false)
  | some outcome =>
    if settings.policy.masks then
      -- spans past the ceiling are not in the block, and are not masked
      let marked := (outcome.spans.take maxSpans).filter settings.policy.marks
      if marked.isEmpty then (body, false)
      else
        let masked := maskSpans body marked
        (masked, masked != body)
    else (body, false)

variable {settings}

theorem decideTagsAndExtra_of_ne (hkey : key ≠ blockKey) (scannedAt : String) (tags : List Tag)
    (extra : ExtraFields) (existing : Option Note) (outcome : Option PassOutcome) :
    (settings.decideTagsAndExtra scannedAt tags extra existing outcome).2 key =
      carryExtra existing extra key := by
  unfold decideTagsAndExtra
  split
  · exact Function.update_of_ne hkey _ _
  · rfl

theorem maskedBody_of_masks_false (hmasks : settings.policy.masks = false) (body : String)
    (outcome : Option PassOutcome) : settings.maskedBody body outcome = (body, false) := by
  unfold maskedBody
  cases outcome with
  | none => rfl
  | some outcome => simp [hmasks]

end PrivacySettings

end Gradatum.Notes
