import Texturion.CallVoicemail
import Texturion.CallForgery
import Texturion.CallOwner
import Texturion.CallMirror
import Texturion.CallCascade
import Texturion.CallTransfer
import Texturion.CallTags
import Texturion.NextOpening
import Texturion.WebhookRuns
import Texturion.MessageStatusRuns
import Texturion.PrepaidCredit
import Texturion.PrepaidRevocation
import Texturion.ExtraNumberCapacity
import Texturion.Ics
import Texturion.NumberAllowance
import Texturion.CalendarPull
import Texturion.CalendarStaleRead
import Texturion.ReminderReplan
import Texturion.CalendarOneEvent
import Texturion.CalendarScrub
import Texturion.ReminderRefresh
import Texturion.OptOutHandlers
import Texturion.OptOutReplay
import Texturion.InboundThreading
import Texturion.CallThreading
import Texturion.ConsentLedger
import Texturion.ImportStanding
import Texturion.ImportRecovery
import Texturion.UsageBacklog
import Texturion.WebhookSweeps
import Texturion.ContactNumbers
import Texturion.OneText
import Texturion.SubscriptionConvergence
import Texturion.OneAudioPath
import Texturion.HeldRings
import Texturion.RingDeclines
import Texturion.ContactAddresses
import Texturion.CsvLines
import Texturion.ImportDeclarations
import Texturion.VCardEscapes
import Texturion.VCardLines
import Texturion.OneActiveCall
import Texturion.Pictures
import Texturion.FinishedDisconnection
import Texturion.OptOutReconciliation
import Texturion.CallDeclines
import Texturion.NotificationBudget
import Texturion.PrepaidWindow
import Texturion.ScheduledTurns
import Texturion.SegmentPieces
import Texturion.MergeFields
import Texturion.QuietWalk
import Texturion.CostProjection
import Texturion.TwoClocks
import Texturion.ProviderClocks
import Texturion.CallStages
import Texturion.ListPages
