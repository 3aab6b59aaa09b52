import Idsm.Managerd.RuleBindingProperties
import Idsm.Managerd.RuleAtomicityProperties
import Idsm.Managerd.RuleSeparationProperties
import Idsm.Managerd.ConfigAtomicityProperties
import Idsm.Managerd.ConfigIntegrityProperties
import Idsm.Protocol.SerializerProperties
import Idsm.Android.ConfigManagerProperties
import Idsm.Android.EventDeliveryProperties
import Idsm.Android.CredentialExpiryProperties
import Idsm.Managerd.SignedFormatProperties
import Idsm.Protocol.RoundTripProperties
import Idsm.Json.RawTextProperties
import Idsm.IdsRm.JsonPayloadProperties
import Idsm.Managerd.ReportingProperties
import Idsm.Managerd.CertRenewalProperties
import Idsm.Managerd.RegistrationProperties
import Idsm.Managerd.AlertUploadProperties
import Idsm.IdsM.StatsProperties
import Idsm.IdsM.ThresholdProperties
import Idsm.IdsM.AggregationProperties
import Idsm.EthProbe.StreamShiftProperties
import Idsm.EthProbe.RuleStreamProperties
import Idsm.EthProbe.DoipFramingProperties
import Idsm.EthProbe.HttpSegmentationProperties
import Idsm.EthProbe.RuleDuplicatesProperties
import Idsm.EthProbe.FragmentTransparencyProperties
import Idsm.EthProbe.FlowTableProperties
import Idsm.EthProbe.ConnectionReuseProperties
import Idsm.Managerd.SnapshotUploadProperties
import Idsm.Android.LogSnapshot
import Idsm.Android.RuleCanonicalProperties
import Idsm.Android.DownlinkProperties
import Idsm.Managerd.FieldKindProperties
import Idsm.Android.RuleDecisionProperties
import Idsm.Android.VsocEnvelope
import Idsm.Android.JsonAgreement
import Idsm.Android.AlertEnvelopeProperties
import Idsm.IdsM.SamplingProperties
import Idsm.IdsM.LifecycleProperties
import Idsm.IdsM.ExpiryProperties
import Idsm.EthProbe.ContentSearchProperties
import Idsm.IdsRm.Manager
import Idsm.IdsRm.SinkLifecycleProperties
import Idsm.IdsRm.DeliveryProperties
import Idsm.IdsRm.TeeProperties
import Idsm.Foundation.Waiting
import Idsm.IdsRm.WakeupProperties
import Idsm.Foundation.CText
import Idsm.EthProbe.DnsQuestionProperties
import Idsm.EthProbe.TrailerProperties
import Idsm.Foundation.PrefixTrie
import Idsm.EthProbe.GeoIp
import Idsm.EthProbe.CidrTrieProperties
import Idsm.EthProbe.RulePlacementProperties
import Idsm.EthProbe.ContentGrammarProperties
import Idsm.EthProbe.DatagramResultProperties
import Idsm.EthProbe.AddressText
import Idsm.EthProbe.VariableProperties
import Idsm.EthProbe.GapTimerProperties
import Idsm.EthProbe.FirstSeenProperties
import Idsm.EthProbe.RuleLine
import Idsm.EthProbe.EscapeRoundTripProperties
import Idsm.EthProbe.AddressTextProperties
import Idsm.EthProbe.CidrAgreementProperties
import Idsm.EthProbe.TlsProperties
import Idsm.Managerd.Base64Properties
import Idsm.Managerd.LineQueue
import Idsm.Managerd.AlertQueueAlignmentProperties
import Idsm.Managerd.SocketServer
import Idsm.CanProbe.IdList
import Idsm.CanProbe.IdListProperties
import Idsm.HostProbe.Baseline
import Idsm.HostProbe.BaselineProperties
import Idsm.EthProbe.SomeipLengthProperties
import Idsm.Probe.Pcap
import Idsm.Probe.PcapProperties
import Idsm.Dashboard.Context
import Idsm.Dashboard.ContextProperties
import Idsm.HostProbe.LiveScan
import Idsm.HostProbe.LiveScanProperties
import Idsm.Managerd.CertInstallProperties
import Idsm.Dashboard.Violations
import Idsm.Foundation.LineProtocol
import Idsm.Dashboard.ViolationsProperties
import Idsm.EveBridge.Eve
import Idsm.Json.Places
import Idsm.EveBridge.EveProperties
import Idsm.CanProbe.Detectors
import Idsm.CanProbe.DetectorProperties
import Idsm.EthProbe.PortScan
import Idsm.EthProbe.PortScanProperties
import Idsm.Foundation.BlockHash
import Idsm.Foundation.Fips180
import Idsm.HostProbe.Sha256
import Idsm.HostProbe.Sha256Properties
import Idsm.Foundation.Rfc1321
import Idsm.EthProbe.Md5
import Idsm.EthProbe.Md5Properties
import Idsm.IdsM.QueueProperties
import Idsm.Foundation.Pool
import Idsm.EthProbe.DefragResourceProperties
import Idsm.EthProbe.StreamResourceProperties
import Idsm.Foundation.CheckedReads
import Idsm.EthProbe.CheckedPacket
import Idsm.EthProbe.CheckedPacketProperties
import Idsm.EthProbe.CheckedParsers
import Idsm.EthProbe.CheckedUdpProperties
import Idsm.EthProbe.CheckedTlsProperties
import Idsm.EthProbe.CheckedHttpProperties
import Idsm.Managerd.SnapshotCalls
import Idsm.Managerd.SnapshotIsolation
import Idsm.Foundation.Reactors
import Idsm.Foundation.Cooldown
import Idsm.Foundation.Latches
import Idsm.CanProbe.Pipeline
import Idsm.CanProbe.PipelineProperties
import Idsm.CanProbe.IntervalProperties
import Idsm.HostProbe.Pipeline
import Idsm.HostProbe.PipelineProperties
import Idsm.HostProbe.DetectorProperties
import Idsm.HostProbe.Reports
