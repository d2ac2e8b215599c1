import RustyBacnet.Time
import RustyBacnet.Lib.Scanner
import RustyBacnet.Lib.ByteStuffing
import RustyBacnet.Lib.Slices
import RustyBacnet.Mstp.Basic
import RustyBacnet.Mstp.Crc
import RustyBacnet.Mstp.StreamLaws
import RustyBacnet.Mstp.QueueLaws
import RustyBacnet.Mstp.Actions
import RustyBacnet.Mstp.Config
import RustyBacnet.Mstp.Input
import RustyBacnet.Mstp.SendRefine
import RustyBacnet.Mstp.CoreLaws
import RustyBacnet.Bip.Address
import RustyBacnet.Encoding.Npdu
import RustyBacnet.Lib.Budget
import RustyBacnet.Lib.SortedArray
import RustyBacnet.Lib.Swaps
import RustyBacnet.Npdu.Link
import RustyBacnet.Router.Chain
import RustyBacnet.Router.Delivery
import RustyBacnet.Router.Duplicates
import RustyBacnet.Router.Answers
import RustyBacnet.Router.Hops
import RustyBacnet.Router.Reserved
import RustyBacnet.Router.Safety
import RustyBacnet.Router.Table.Dampening
import RustyBacnet.Sc.FrameCodec
import RustyBacnet.Bip.BvllCodec
import RustyBacnet.Bip.Bbmd.Network
import RustyBacnet.Apdu.Codec
import RustyBacnet.Cov.Baselines
import RustyBacnet.Cov.Active
import RustyBacnet.Cov.Prefix
import RustyBacnet.Log.Lookup
import RustyBacnet.Log.PagedRead
import RustyBacnet.Endpoint.LeaseLaws
import RustyBacnet.Cov.TimedRuns
import RustyBacnet.Cov.TimedReports
import RustyBacnet.Cov.TimedKept
import RustyBacnet.Cov.TimedReturns
import RustyBacnet.Cov.TimedFound
import RustyBacnet.Segmentation.ResponseRuns
import RustyBacnet.Segmentation.RequestRuns
import RustyBacnet.Mstp.CrcTables
import RustyBacnet.Mstp.CobsDecoding
import RustyBacnet.Mstp.TokenSlots
import RustyBacnet.Mstp.StreamAccounting
import RustyBacnet.Mstp.Pacing
import RustyBacnet.Mstp.SearchRuns
import RustyBacnet.Encoding.Frames
import RustyBacnet.Bip.Bbmd.NatAgreement
import RustyBacnet.Bip.Bbmd.Targets
import RustyBacnet.Bip.Bvll6Codec
import RustyBacnet.Clock.SyncedLaws
import RustyBacnet.Events.DetectorLaws
import RustyBacnet.Report.OutboxLaws
import RustyBacnet.Segmentation.WindowOctets
import RustyBacnet.ReadRange.PageLaws
import RustyBacnet.Time.DivideSteps
import RustyBacnet.Bip.Node.Leased
