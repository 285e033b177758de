import KernelLink.Main
import KernelLink.Stage.Child
import KernelLink.Stage.Play
import KernelLink.Stage.Sharing
import KernelLink.Stage.Tenancy
import KernelLink.Proofs.Host.TextLines
import KernelLink.Proofs.Session.Poll
import KernelLink.Proofs.Session.Turns
import KernelLink.Proofs.Wire.SingleLine
import KernelLink.Proofs.Session.Captured
import KernelLink.Proofs.Session.Fallback
import KernelLink.Proofs.Session.Ledger
import KernelLink.Proofs.Session.Malformed
import KernelLink.Proofs.Session.Pairing
import KernelLink.Proofs.Session.StaleErrors
import KernelLink.Proofs.Shared.OneKernel
import KernelLink.Proofs.Session.Queue
import KernelLink.Proofs.Session.Dead
import KernelLink.Proofs.Host.WholeLines
import KernelLink.Proofs.Json.Members
import KernelLink.Proofs.Json.Numbers
import KernelLink.Proofs.Json.ReadBack
import KernelLink.Proofs.Mock.Objects
import KernelLink.Proofs.Mock.Replies
import KernelLink.Proofs.Mock.Requests
import KernelLink.Proofs.Session.Sent
import KernelLink.Proofs.Session.SetThenGet
import KernelLink.Proofs.Session.Abandoned
import KernelLink.Proofs.Wire.RoundTrip
import KernelLink.Proofs.Session.Launching
import KernelLink.Proofs.Session.Classified
import KernelLink.Proofs.Session.ClosesOnce
import KernelLink.Proofs.Session.FullPipe
import KernelLink.Proofs.Control.ShutDown
import KernelLink.Proofs.Session.Closing
import KernelLink.Proofs.Session.Returning
import KernelLink.Proofs.Mock.History
import KernelLink.Proofs.Shared.OneInstalled
import KernelLink.Proofs.Session.Instants
import KernelLink.Proofs.Session.InTime
import KernelLink.Proofs.Json.Grammar
import KernelLink.Proofs.Json.Tokens
import KernelLink.Proofs.Json.Numerals
import KernelLink.Proofs.Json.Reading
import KernelLink.Proofs.Json.Spelled
import KernelLink.Proofs.Json.PrefixFree
import KernelLink.Proofs.Text.Fronts
import KernelLink.Proofs.Wire.Envelopes
import KernelLink.Proofs.Session.CutOff
import KernelLink.Proofs.Session.KernelGone
import KernelLink.Proofs.Wire.Greetings
import KernelLink.Proofs.Session.Listening
import KernelLink.Proofs.Session.Greeted
import KernelLink.Proofs.Stderr.Kept
import KernelLink.Proofs.Wire.Versions
import KernelLink.Proofs.Session.Paced
import KernelLink.Proofs.Session.Deadlines
import KernelLink.Proofs.Session.LeftEarly
import KernelLink.Proofs.Platform.WholeTree
import KernelLink.Proofs.Text.Replaced
import KernelLink.Proofs.Session.Handed
import KernelLink.Proofs.Platform.Escalation
import KernelLink.Proofs.Mock.Outcomes
import KernelLink.Proofs.Mock.Sums
import KernelLink.Proofs.Number.Rounding
import KernelLink.Proofs.Number.Shortest
import KernelLink.Proofs.Json.Doubles
import KernelLink.Proofs.Json.InRange
import KernelLink.Proofs.Mock.Answers
import KernelLink.Proofs.Mock.LineProtocol
import KernelLink.Proofs.Platform.SingleProcess
import KernelLink.Proofs.Session.Noticing
import KernelLink.Proofs.Session.Played
import KernelLink.Proofs.Session.Launched
import KernelLink.Proofs.Shared.Series
import KernelLink.Proofs.Stage.Rehearsal
import KernelLink.Proofs.Stage.Sharing
import KernelLink.Proofs.Stage.Child
import KernelLink.Proofs.Host.Files
import KernelLink.Proofs.Machine.Family
import KernelLink.Proofs.Machine.Processes
import KernelLink.Proofs.Machine.Steps
import KernelLink.Proofs.Machine.Site
import KernelLink.Proofs.Machine.Patterns
