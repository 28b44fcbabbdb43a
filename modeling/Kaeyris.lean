import Kaeyris.Lib.Table
import Kaeyris.Lib.Process
import Kaeyris.Lib.Transition
import Kaeyris.TextChunker
import Kaeyris.Config
import Kaeyris.Db.Models
import Kaeyris.Db.Repositories
import Kaeyris.Queue
import Kaeyris.Logic
import Kaeyris.Router
import Kaeyris.Jobs.Effects
import Kaeyris.Jobs.Transcription
import Kaeyris.Jobs.Artifacts
import Kaeyris.System
import Kaeyris.Proof.Frame
import Kaeyris.Proof.Reset
import Kaeyris.Proof.Reupload
import Kaeyris.Proof.JobRuns
import Kaeyris.Proof.Summary
import Kaeyris.Proof.TranscriptionRuns
import Kaeyris.Proof.ExitState
import Kaeyris.Proof.Redelivery
import Kaeyris.Proof.Views
import Kaeyris.Proof.Requests
import Kaeyris.Proof.JobMoves
import Kaeyris.Proof.Steps
import Kaeyris.Proof.LiveJobs
import Kaeyris.Proof.Wedged
import Kaeyris.Proof.Participants
import Kaeyris.Proof.Provenance
import Kaeyris.Proof.Edits
import Kaeyris.Proof.RateLimit
import Kaeyris.UserRequests
import Kaeyris.Proof.Administrators
import Kaeyris.Proof.Setup
import Kaeyris.Proof.Recovery
import Kaeyris.LocalModels
import Kaeyris.Proof.LocalModels
import Kaeyris.Markdown
import Kaeyris.Me
import Kaeyris.Proof.Isolation
import Kaeyris.Lifecycle
import Kaeyris.Proof.Holdings
import Kaeyris.Proof.Tenancy
import Kaeyris.Proof.Runnable
import Kaeyris.AudioFiles
import Kaeyris.Proof.AudioFiles
import Kaeyris.Proof.AudioAlone
import Kaeyris.Proof.TextChunker
import Kaeyris.Lib.Json.RoundTrip
import Kaeyris.ElementCards
import Kaeyris.Proof.ElementCards
import Kaeyris.Proof.GeneratedElements
import Kaeyris.Lib.Json.Fragments
import Kaeyris.Proof.ElementReplies
import Kaeyris.WebSessions
import Kaeyris.Proof.WebSessions
import Kaeyris.Campaigns
import Kaeyris.Proof.Campaigns
import Kaeyris.Lib.Noninterference
import Kaeyris.Quotas
import Kaeyris.Proof.Quotas
import Kaeyris.Lib.Paths
import Kaeyris.LocalPaths
import Kaeyris.Proof.LocalPaths
import Kaeyris.Numerals
import Kaeyris.Proof.RetryAfter
import Kaeyris.AudioRange
import Kaeyris.Proof.AudioRange
import Kaeyris.Lib.Decimals
import Kaeyris.AudioChunks
import Kaeyris.Proof.AudioChunks
import Kaeyris.Proof.Stitching
import Kaeyris.Lib.Monitor
import Kaeyris.Lib.Rounding
import Kaeyris.Progress
import Kaeyris.Proof.Progress
import Kaeyris.Proof.Povs
import Kaeyris.Enrolment
import Kaeyris.Proof.Enrolment
import Kaeyris.CampaignKeys
import Kaeyris.Proof.CampaignKeys
import Kaeyris.Lib.Runs
import Kaeyris.SpeakerTurns
import Kaeyris.Proof.SpeakerTurns
import Kaeyris.JobEvents
import Kaeyris.Proof.JobEvents
import Kaeyris.Lib.Query
import Kaeyris.JobProjection
import Kaeyris.Proof.JobProjection
import Kaeyris.Gm
import Kaeyris.Proof.GmIsolation
import Kaeyris.Proof.Locality
import Kaeyris.Proof.Coherence
import Kaeyris.Proof.Ownership
import Kaeyris.Proof.Bystanders
import Kaeyris.Lib.Seclusion
import Kaeyris.Proof.Seclusion
import Kaeyris.Proof.AsAlone
import Kaeyris.Proof.Deleted
import Kaeyris.Lib.Possibility
import Kaeyris.Proof.Recoverable
import Kaeyris.Proof.LostForGood
import Kaeyris.Keyring
import Kaeyris.Proof.ApiKeyVariable
import Kaeyris.Proof.Keyring
import Kaeyris.CampaignContext
import Kaeyris.Proof.CampaignRuns
