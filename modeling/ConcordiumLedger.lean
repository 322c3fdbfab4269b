import ConcordiumLedger.Apps.DeclaredLengths
import ConcordiumLedger.Apps.ErrorAnswers
import ConcordiumLedger.Apps.KeyPaths
import ConcordiumLedger.Apps.SessionIsolation
import ConcordiumLedger.Apps.Signatures
import ConcordiumLedger.Common.AddressEncoding
import ConcordiumLedger.Common.AmountDisplay
import ConcordiumLedger.Common.BlsKeygen
import ConcordiumLedger.Common.ErrorAnswers
import ConcordiumLedger.Common.Frames
import ConcordiumLedger.Common.MainHelpers
import ConcordiumLedger.Common.OneSession
import ConcordiumLedger.Common.PaginatedHex
import ConcordiumLedger.Common.Presses
import ConcordiumLedger.Common.Restarts
import ConcordiumLedger.Common.Rules
import ConcordiumLedger.Common.Screens
import ConcordiumLedger.Common.SignScreens
import ConcordiumLedger.Common.Sessions
import ConcordiumLedger.Common.StreamedParts
import ConcordiumLedger.Governance.App
import ConcordiumLedger.Governance.CreatePlt
import ConcordiumLedger.Governance.Descriptions
import ConcordiumLedger.Governance.Frames
import ConcordiumLedger.Governance.HigherLevelKeys
import ConcordiumLedger.Governance.NumbersDisplayed
import ConcordiumLedger.Governance.ProtocolUpdate
import ConcordiumLedger.Governance.UpdatesShown
import ConcordiumLedger.Lib.Bytes
import ConcordiumLedger.Lib.Cbor
import ConcordiumLedger.Lib.Prog
import ConcordiumLedger.Lib.Transition
import ConcordiumLedger.Main.App
import ConcordiumLedger.Main.BakerUrl
import ConcordiumLedger.Main.CborCopies
import ConcordiumLedger.Main.ConfigureBaker
import ConcordiumLedger.Main.ConfigureDelegation
import ConcordiumLedger.Main.CredentialOrder
import ConcordiumLedger.Main.CredentialSessions
import ConcordiumLedger.Main.ExportedSecrets
import ConcordiumLedger.Main.Frames
import ConcordiumLedger.Main.MemoDisplay
import ConcordiumLedger.Main.MemoFraming
import ConcordiumLedger.Main.RegisterData
import ConcordiumLedger.Main.ReleaseTimes
import ConcordiumLedger.Main.ScheduledTransfer
import ConcordiumLedger.Main.ShownIndices
import ConcordiumLedger.Main.SkippedScreens
import ConcordiumLedger.Main.UpdatedKeys
import ConcordiumLedger.Main.UpdateFormat
