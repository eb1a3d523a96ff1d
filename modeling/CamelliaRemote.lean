import CamelliaRemote.Lib.Runs
import CamelliaRemote.Service.Inner
import CamelliaRemote.Service.Snapshot
import CamelliaRemote.Protocol
import CamelliaRemote.Server.State
import CamelliaRemote.Server.Scope
import CamelliaRemote.Server.Options
import CamelliaRemote.Server.Sessions
import CamelliaRemote.Server.Login
import CamelliaRemote.Server.LoginRequest
import CamelliaRemote.Server.Handlers
import CamelliaRemote.Server.Loop
import CamelliaRemote.Server.View
import CamelliaRemote.Server.LoginEnd
import CamelliaRemote.Server.Turns
import CamelliaRemote.Server.Steps
import CamelliaRemote.Server.PrimaryAuth
import CamelliaRemote.Server.InScope
import CamelliaRemote.Server.Authorized
import CamelliaRemote.Server.HandlerViews
import CamelliaRemote.Server.AuthedConns
import CamelliaRemote.Server.AuthedConnsExact
import CamelliaRemote.Server.ScopeEnforced
import CamelliaRemote.Server.Approval
import CamelliaRemote.Server.TwoFactor
import CamelliaRemote.Server.TemporaryPassword
import CamelliaRemote.Server.Modifiers
import CamelliaRemote.Server.PortableService
import CamelliaRemote.Server.IpcToken
import CamelliaRemote.Privacy.Mode
import CamelliaRemote.Privacy.Ownership
import CamelliaRemote.Login.Failures
import CamelliaRemote.Login.Guessing
import CamelliaRemote.Terminal.OutputBuffer
import CamelliaRemote.Terminal.Session
import CamelliaRemote.Terminal.Replay
import CamelliaRemote.Terminal.Service
import CamelliaRemote.Terminal.Sigwinch
import CamelliaRemote.Terminal.Cleanup
import CamelliaRemote.Lib.Codec
import CamelliaRemote.Portable.Writer
import CamelliaRemote.Portable.Reader
import CamelliaRemote.Portable.Agreement
import CamelliaRemote.Lib.MachineInt
import CamelliaRemote.Lib.Utf16
import CamelliaRemote.Lib.UnixPath
import CamelliaRemote.Clipboard.Contents
import CamelliaRemote.Clipboard.LocalFile
import CamelliaRemote.Clipboard.FileDescription
import CamelliaRemote.Clipboard.ServFiles
import CamelliaRemote.Clipboard.Fuse
import CamelliaRemote.Clipboard.Descriptors
import CamelliaRemote.Clipboard.Forest
import CamelliaRemote.Clipboard.PastedTree
import CamelliaRemote.Clipboard.Audit
import CamelliaRemote.Clipboard.Messages
import CamelliaRemote.Clipboard.Permission
import CamelliaRemote.Lib.Keeps
import CamelliaRemote.Lib.LexicalPath
import CamelliaRemote.Clipboard.PasteTask
import CamelliaRemote.Clipboard.PasteInside
import CamelliaRemote.Clipboard.PasteModels
import CamelliaRemote.Clipboard.ServedRange
import CamelliaRemote.Clipboard.Pasteboard
import CamelliaRemote.Web.Cipher
import CamelliaRemote.Web.Channel
import CamelliaRemote.Lib.Tally
import CamelliaRemote.Video.Encoder
import CamelliaRemote.Video.Negotiation
import CamelliaRemote.Input.Keys
import CamelliaRemote.Input.Keyboard
import CamelliaRemote.Input.KeysDown
import CamelliaRemote.Web.Transport
import CamelliaRemote.Web.Session
import CamelliaRemote.Web.Sealing
import CamelliaRemote.Web.Closing
import CamelliaRemote.Client.VoiceCall
import CamelliaRemote.Client.RemoveJobs
import CamelliaRemote.Client.VideoQueue
import CamelliaRemote.Client.Grab
import CamelliaRemote.Client.KeyEvents
import CamelliaRemote.Client.Keyboard
import CamelliaRemote.Terminal.History
import CamelliaRemote.Terminal.Recent
import CamelliaRemote.Terminal.Utf8Chunks
import CamelliaRemote.Terminal.HelperProtocol
import CamelliaRemote.Terminal.HelperFraming
import CamelliaRemote.Lib.TreeMaps
import CamelliaRemote.Terminal.Open
import CamelliaRemote.Lib.Symbolic
import CamelliaRemote.Handshake.Session
import CamelliaRemote.Handshake.Network
import CamelliaRemote.Handshake.Secrecy
import CamelliaRemote.Lib.BufferedReading
import CamelliaRemote.Clipboard.Reader
import CamelliaRemote.Lib.CheckedReading
import CamelliaRemote.Clipboard.CheckedDescriptors
import CamelliaRemote.Lib.BinarySearch
import CamelliaRemote.Clipboard.FuseServer
import CamelliaRemote.Clipboard.FuseHandles
import CamelliaRemote.Clipboard.FuseTree
import CamelliaRemote.Lib.LinkedFiles
import CamelliaRemote.Clipboard.LinkedWalk
import CamelliaRemote.Clipboard.WalkOnce
import CamelliaRemote.Login.OsCredential
import CamelliaRemote.Lib.GrowingFile
import CamelliaRemote.Record.Upload
import CamelliaRemote.Record.UploadExact
import CamelliaRemote.Client.CustomServer
import CamelliaRemote.Client.CustomServerExact
import CamelliaRemote.Video.Qos
import CamelliaRemote.Video.QosBounds
import CamelliaRemote.Video.FpsControl
import CamelliaRemote.Video.AutoFpsLoop
import CamelliaRemote.Video.RefreshesPaced
import CamelliaRemote.Web.Upload
import CamelliaRemote.Web.UploadComplete
import CamelliaRemote.Lib.Lowercase
import CamelliaRemote.Client.NameFields
import CamelliaRemote.Web.Inbox
import CamelliaRemote.Forward.Listen
import CamelliaRemote.Display.RemapLayout
import CamelliaRemote.Video.FramePacing
import CamelliaRemote.Service.CaptureDisplays
import CamelliaRemote.Record.Recorder
import CamelliaRemote.Display.SyncDisplays
import CamelliaRemote.Lib.EntryList
import CamelliaRemote.Lib.Numerals
import CamelliaRemote.Web.AddrMangle
import CamelliaRemote.Web.DecoderRegistry
import CamelliaRemote.Web.DeltaChains
import CamelliaRemote.Server.PortableLaunch
import CamelliaRemote.Server.CaptureSlot
import CamelliaRemote.Client.ConnectionRounds
import CamelliaRemote.Client.ClipboardLoop
import CamelliaRemote.Client.AudioBuffer
import CamelliaRemote.Client.AudioAligned
import CamelliaRemote.Rendezvous.Restart
import CamelliaRemote.Rendezvous.Duplicates
import CamelliaRemote.Server.RemoveLog
import CamelliaRemote.Clipboard.PasteProgress
import CamelliaRemote.Clipboard.PasteBounds
import CamelliaRemote.Lib.Keyed
import CamelliaRemote.Clipboard.PasteExact
import CamelliaRemote.Client.OnlineStates
import CamelliaRemote.Server.CursorCounter
import CamelliaRemote.Clipboard.RemoteRead
import CamelliaRemote.Clipboard.RemoteReadExact
import CamelliaRemote.Clipboard.PastedReads
import CamelliaRemote.Server.ReadJobs
import CamelliaRemote.Server.ReadJobView
import CamelliaRemote.Server.ReadJobsForwarded
import CamelliaRemote.Web.Download
import CamelliaRemote.Web.DownloadTracked
import CamelliaRemote.Web.DownloadSaved
import CamelliaRemote.Web.DownloadServed
