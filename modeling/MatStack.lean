import MatStack.Controller.Counter
import MatStack.Controller.GroupCounter
import MatStack.Controller.Btp.Accounting
import MatStack.Controller.Btp.Delivery
import MatStack.Controller.CertDer
import MatStack.Controller.CertChain
import MatStack.Controller.Tlv
import MatStack.Controller.TlvRoundTrip
import MatStack.Controller.DeviceCodec
import MatStack.Controller.Kvs.Agreement
import MatStack.Controller.IpkRotation
import MatStack.Controller.SessionDelivery
import MatStack.Controller.Dnssd.CacheFreshness
import MatStack.Controller.Dnssd.CacheAgreement
import MatStack.Controller.Dnssd.Browse
import MatStack.Device.Mdns.Discovery
import MatStack.Device.AccessControl
import MatStack.Device.FailSafeWindow
import MatStack.Device.AccessControlRules
import MatStack.Device.DataVersions
import MatStack.Device.DeliveryRuns
import MatStack.Device.GroupReplay
import MatStack.Device.GroupHost
import MatStack.Device.Commissioning.Confirmation
import MatStack.Device.Commissioning.Indices
import MatStack.Device.Commissioning.Window
import MatStack.Device.EndpointLedger
import MatStack.Device.GroupKeyIntegrity
import MatStack.Device.ImServer
import MatStack.Device.Runtime
import MatStack.Controller.SecureChannel
import MatStack.Controller.NonceUniqueness
import MatStack.Device.Commissioning.Budget
import MatStack.Device.Commissioning.Identities
import MatStack.Matd.TouchedSignal
import MatStack.Matd.EventRecovery
import MatStack.Controller.IpkLockout
import MatStack.Controller.SetupCode.Manual
import MatStack.Controller.TlvCopies
import MatStack.Device.Settlement
import MatStack.Mat.NodeLedger
import MatStack.Matd.WarmSession
import MatStack.Matd.SessionReuse
import MatStack.Matd.OpDeadline
import MatStack.Controller.TlvRecords
import MatStack.Controller.ImInvoke
import MatStack.Controller.CommissionCodec
import MatStack.Controller.CertTlv
import MatStack.Controller.CommissionFlow
import MatStack.Lib.CheckDigit
import MatStack.Controller.SetupCode.Verhoeff
import MatStack.Device.SubscribeGate
import MatStack.Device.GroupPrivacy
import MatStack.Controller.CertDates
import MatStack.Controller.DerReader
import MatStack.Controller.Dnssd.OneDevice
import MatStack.Controller.Attestation
import MatStack.Controller.KeysetFrame
import MatStack.Lib.Grouped
import MatStack.Controller.MergeReports
import MatStack.Lib.Pratt
import MatStack.Controller.Spake2p
import MatStack.Controller.CommissionMessages
import MatStack.Controller.TlvSplice
import MatStack.Device.UnknownFields
import MatStack.Device.KeySetAgreement
import MatStack.Matd.AttributeRecovery
import MatStack.Mat.Aliases
import MatStack.Mat.Hex
import MatStack.Device.MembershipTable
import MatStack.Device.SubscriptionTiming
import MatStack.Controller.Race
import MatStack.Mat.CommissionRoutes
import MatStack.Mat.Error
import MatStack.Mat.Ids
import MatStack.Mat.Op
import MatStack.Mat.JsonFields
import MatStack.Matd.Protocol
import MatStack.Mat.DeviceOp
import MatStack.Device.CaseResponder
import MatStack.Device.PaseHandshake
