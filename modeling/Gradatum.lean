import Gradatum.Queue.Fencing
import Gradatum.Queue.Dependency
import Gradatum.Queue.Retry
import Gradatum.Queue.ReadAgreement
import Gradatum.Queue.Message
import Gradatum.Leader.Exclusion
import Gradatum.Access.Timeline
import Gradatum.Access.CardIdentity
import Gradatum.Access.TrackRuns
import Gradatum.Access.Grants
import Gradatum.Access.Souls
import Gradatum.Access.Idempotency
import Gradatum.Notes.StatusFrame
import Gradatum.Notes.CompareAndSwap
import Gradatum.Notes.Retention
import Gradatum.Access.MailRuns
import Gradatum.Gateway.Recovery
import Gradatum.Gateway.KeepAlive
import Gradatum.Gateway.Agreement
import Gradatum.Search.Relevance
import Gradatum.Notes.RestoreRuns
import Gradatum.Notes.ReadBack
import Gradatum.ProjectMap.VersionAgreement
import Gradatum.Context.Disclosure
import Gradatum.Engine.Supervisor
import Gradatum.Search.Penalties
import Gradatum.Access.ForgottenList
import Gradatum.Access.CreateFeature
import Gradatum.Access.ForgetProtocol
import Gradatum.Access.Graph
import Gradatum.Access.Acl
import Gradatum.Access.Routing
import Gradatum.Access.Audit
import Gradatum.ProjectMap.History
import Gradatum.Notes.Windowing
import Gradatum.Context.Skills
import Gradatum.Queue.Batches
import Gradatum.Engine.Shutdown
import Gradatum.Notes.SidecarBreaker
