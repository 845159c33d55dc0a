import FlyVault.Lib.Prog
import FlyVault.Lib.FileTree
import FlyVault.Lib.Run
import FlyVault.Lib.Notify
import FlyVault.Lib.Endian
import FlyVault.Lib.Update
import FlyVault.Lib.Outcome
import FlyVault.Lib.Window
import FlyVault.Protocol.Console
import FlyVault.Protocol.ProxyPacket
import FlyVault.Protocol.Control
import FlyVault.Init.ConsoleBuffer
import FlyVault.Init.PtyOutput
import FlyVault.Init.ConsoleStream
import FlyVault.Init.ConsoleResume
import FlyVault.Init.ConsoleExit
import FlyVault.Init.ExecSession
import FlyVault.Init.ExecAttachment
import FlyVault.Client.ExecInvocation
import FlyVault.Client.AttestationCache
import FlyVault.Client.ValidateAttestation
import FlyVault.Init.Connection
import FlyVault.Init.Setup
import FlyVault.Init.SetupRules
import FlyVault.Init.SetupSpecs
import FlyVault.Init.SetupLayout
import FlyVault.Init.SetupSteps
import FlyVault.Init.Activation
import FlyVault.Init.Reprovision
import FlyVault.Init.CrashConsistency
import FlyVault.Client.Reconnect
import FlyVault.Lib.Codec
import FlyVault.Protocol.ControlCodec
import FlyVault.Protocol.FrameStream
import FlyVault.Protocol.Oversized
import FlyVault.Protocol.ExecFormats
import FlyVault.Init.ConsoleOffsets
import FlyVault.Init.SharedConsole
import FlyVault.Init.ConsoleInput
import FlyVault.Client.PortForward
import FlyVault.Admin.Machines
import FlyVault.Admin.Rollout
import FlyVault.Admin.Rollback
import FlyVault.Client.ReconnectDrop
import FlyVault.Client.ReconnectLease
import FlyVault.Init.ConsoleWake
import FlyVault.Init.ExecUnique
import FlyVault.Init.SetupFrame
import FlyVault.Init.PersistentData
import FlyVault.Init.ColdProvision
import FlyVault.Init.FailedProvision
import FlyVault.Init.Bootstrap
import FlyVault.Client.CacheUpdates
import FlyVault.Init.ColdBoots
import FlyVault.Client.ForwardTarget
import FlyVault.Proxy.RoutingTables
import FlyVault.Client.ControlSocket
import FlyVault.Proxy.Sessions
import FlyVault.Admin.RolloutPlan
import FlyVault.Admin.RolloutSchedule
import FlyVault.Client.StdinReaders
import FlyVault.Admin.RollbackList
import FlyVault.Admin.Template
import FlyVault.Admin.Tenant
import FlyVault.Admin.CreateTenant
import FlyVault.Admin.DeleteTenant
import FlyVault.Init.ReplayBuffer
import FlyVault.Init.SharedShell
import FlyVault.Init.Takeover
import FlyVault.Protocol.Decoders
import FlyVault.Client.ProxyUdp
import FlyVault.Admin.OneMachine
import FlyVault.Admin.Lease
import FlyVault.Admin.ImageOnly
import FlyVault.Admin.Placeholders
import FlyVault.Lib.JsonPath
import FlyVault.Admin.Rendering
import FlyVault.Admin.RenderOrder
import FlyVault.Admin.WaitForState
import FlyVault.Lib.Owned
import FlyVault.Proxy.StartOnce
import FlyVault.Admin.DeleteScope
import FlyVault.Init.InnerInit
import FlyVault.Client.ConsoleSession
import FlyVault.Lib.Calendar
import FlyVault.Admin.Usage
import FlyVault.Client.Attest
import FlyVault.Client.ConnectReady
import FlyVault.Client.TokenInvariant
import FlyVault.Client.TokenRelease
import FlyVault.Proxy.Forwarding
import FlyVault.Proxy.Isolation
import FlyVault.Proxy.Tunnel
