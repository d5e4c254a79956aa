import LibSshpp.Foundation.Bytes
import LibSshpp.Foundation.Error
import LibSshpp.Foundation.Fingerprint
import LibSshpp.Foundation.Cut
import LibSshpp.Foundation.Stoi
import LibSshpp.Foundation.Lines
import LibSshpp.Program.StateTriple
import LibSshpp.Program.Trace
import LibSshpp.Program.Schedule
import LibSshpp.Program.WriteAll
import LibSshpp.Program.ExactTransfer
import LibSshpp.Program.CopyLoop
import LibSshpp.Program.Scripted
import LibSshpp.Program.Holdings
import LibSshpp.Program.Batch
import LibSshpp.Program.Patch
import LibSshpp.Program.Interleave
import LibSshpp.Program.CappedPieces
import LibSshpp.Program.Lockstep
import LibSshpp.Posix.Stat
import LibSshpp.Posix.ShellWords
import LibSshpp.Posix.ShellGrammar
import LibSshpp.Posix.StreamSocket
import LibSshpp.Posix.InetText
import LibSshpp.Posix.FileStream
import LibSshpp.Posix.FileTree
import LibSshpp.Posix.PathWalk
import LibSshpp.Posix.FileSystem
import LibSshpp.Posix.CanonicalPath
import LibSshpp.Posix.Confinement
import LibSshpp.Posix.ConfinedCalls
import LibSshpp.Posix.LinkEntries
import LibSshpp.Posix.NewObjects
import LibSshpp.Posix.LexicalPaths
import LibSshpp.Posix.PathTexts
import LibSshpp.Posix.BackedFiles
import LibSshpp.Posix.OpenedFiles
import LibSshpp.Exec.ShellQuote
import LibSshpp.Exec.CommandName
import LibSshpp.Exec.Output
import LibSshpp.Exec.OutputLimit
import LibSshpp.Exec.LostConnection
import LibSshpp.Exec.WaitExit
import LibSshpp.Exec.Interact
import LibSshpp.Transfers.Loops
import LibSshpp.Transfers.PrefixLaw
import LibSshpp.Transfers.LongWrites
import LibSshpp.Forwarding.Pump
import LibSshpp.Forwarding.HalfClose
import LibSshpp.Forwarding.DeadSession
import LibSshpp.Forwarding.StopRequests
import LibSshpp.Forwarding.SocksRequest
import LibSshpp.Forwarding.DisplayTarget
import LibSshpp.Forwarding.SocksProxy
import LibSshpp.Forwarding.ServedConnection
import LibSshpp.Forwarding.ServedOnce
import LibSshpp.Forwarding.ForwardLoops
import LibSshpp.Forwarding.RemoteListener
import LibSshpp.Forwarding.AcceptLoop
import LibSshpp.Client.Session
import LibSshpp.Client.LoginRecord
import LibSshpp.Client.Authenticators
import LibSshpp.Client.AuthRetries
import LibSshpp.Client.HostKeyGate
import LibSshpp.Client.TrustOnFirstUse
import LibSshpp.Client.ApplyOptions
import LibSshpp.Client.TargetText
import LibSshpp.Client.AuthorizedKeys
import LibSshpp.Client.KnownHosts
import LibSshpp.Lifetime.Library
import LibSshpp.Lifetime.Handles
import LibSshpp.Lifetime.Parents
import LibSshpp.Sftp.Attributes
import LibSshpp.Sftp.RemoteFile
import LibSshpp.Sftp.FileCalls
import LibSshpp.Sftp.ReadAhead
import LibSshpp.Sftp.WriteBehind
import LibSshpp.Sftp.Directory
import LibSshpp.Sftp.LostFailures
import LibSshpp.Sftp.DirectoryWalk
import LibSshpp.Sftp.Transfer
import LibSshpp.Sftp.ReadFile
import LibSshpp.Sftp.DownloadTree
import LibSshpp.Sftp.DownloadExact
import LibSshpp.Sftp.TreeContainment
import LibSshpp.Sftp.MakeDirectories
import LibSshpp.Sftp.MadePaths
import LibSshpp.Scp.Transfer
import LibSshpp.Scp.WriteFrom
import LibSshpp.SftpServer.Session
import LibSshpp.SftpServer.Subsystem
import LibSshpp.SftpServer.RequestRules
import LibSshpp.SftpServer.Handles
import LibSshpp.SftpServer.HandleRelease
import LibSshpp.SftpServer.OwnResources
import LibSshpp.SftpServer.ReadOnly
import LibSshpp.SftpServer.EntryRequests
import LibSshpp.SftpServer.WriteRequests
import LibSshpp.SftpServer.AcknowledgedWrites
import LibSshpp.SftpServer.ReadRequests
import LibSshpp.SftpServer.OpenRequests
import LibSshpp.SftpServer.ServedFiles
import LibSshpp.SftpServer.ServedSessions
import LibSshpp.SftpServer.ServedDownloads
import LibSshpp.SftpServer.ServedUploads
import LibSshpp.SftpServer.ServedRoundTrips
import LibSshpp.SftpServer.SizeLimit
import LibSshpp.SftpServer.DirectoryListing
import LibSshpp.SftpServer.Replies
import LibSshpp.SftpServer.ListingRuns
import LibSshpp.SftpServer.DirectoryRequests
import LibSshpp.SftpServer.ServedListings
import LibSshpp.SftpServer.RootConfinement
import LibSshpp.SftpServer.ResolvedPaths
import LibSshpp.Server.SessionHandler
import LibSshpp.Server.HandlerBridge
import LibSshpp.Server.MovedSession
import LibSshpp.Server.AttemptLimit
import LibSshpp.Server.CredentialTable
import LibSshpp.Server.MessageReplies
import LibSshpp.Server.ChannelTable
import LibSshpp.Server.CommandHandler
import LibSshpp.Transfers.WriteEnds
import LibSshpp.Client.PinnedHostKeys
