import ConferenceBadge.Board.Badge
import ConferenceBadge.Main
import ConferenceBadge.Proofs.Badge.Ownership
import ConferenceBadge.Proofs.Badge.SleepRequest
import ConferenceBadge.Proofs.Manifest.CutOff
import ConferenceBadge.Proofs.Manifest.Parse
import ConferenceBadge.Proofs.Scheduler.MintOrder
import ConferenceBadge.Proofs.Scheduler.FiringTime
import ConferenceBadge.Proofs.Scheduler.IdleTime
import ConferenceBadge.Proofs.Scheduler.Overlay
import ConferenceBadge.Proofs.Scheduler.Queue
import ConferenceBadge.Proofs.Scheduler.Dispatch
import ConferenceBadge.Proofs.Scheduler.Registration
import ConferenceBadge.Proofs.Scheduler.View
import ConferenceBadge.Proofs.Power.Tracking
import ConferenceBadge.Proofs.Session.Input
import ConferenceBadge.Proofs.Session.Sleep
import ConferenceBadge.Proofs.Service.Registered
import ConferenceBadge.Proofs.Service.BrokenApps
import ConferenceBadge.Proofs.Service.ClockRequired
import ConferenceBadge.Proofs.Service.WifiFailure
import ConferenceBadge.Proofs.Service.DrawPaths
import ConferenceBadge.Proofs.Service.LoopTask
import ConferenceBadge.Proofs.Session.InRange
import ConferenceBadge.Proofs.Session.Batches
import ConferenceBadge.Proofs.Scheduler.Refusal
import ConferenceBadge.Proofs.Power.Platform
import ConferenceBadge.Proofs.Badge.Rows
import ConferenceBadge.Proofs.Badge.Heartbeat
import ConferenceBadge.Proofs.Badge.Timer
