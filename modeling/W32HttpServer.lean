import W32HttpServer.Common
import W32HttpServer.Lib.Scan
import W32HttpServer.Lib.LexicalPath
import W32HttpServer.Lib.Generator
import W32HttpServer.HttpRequest
import W32HttpServer.RequestText
import W32HttpServer.HttpPath
import W32HttpServer.HttpResponse
import W32HttpServer.Platform
import W32HttpServer.Disk
import W32HttpServer.Context
import W32HttpServer.DirStream
import W32HttpServer.Serve
import W32HttpServer.DirectoryListing
import W32HttpServer.Reflection
import W32HttpServer.MethodToken
import W32HttpServer.Redirect
import W32HttpServer.ClientEscape
import W32HttpServer.PercentDecoding
import W32HttpServer.Lib.PercentCode
import W32HttpServer.SteadyUrl
import W32HttpServer.Links
import W32HttpServer.Win9xClient
import W32HttpServer.NtHandlers
import W32HttpServer.Backends
import W32HttpServer.WholeResponse
import W32HttpServer.IocpWorker
import W32HttpServer.Lib.Transition
import W32HttpServer.Lib.Ledger
import W32HttpServer.Lib.Alternation
import W32HttpServer.StreamHandles
import W32HttpServer.Lib.LinkedList
import W32HttpServer.Lib.Machine
import W32HttpServer.Lib.Ownership
import W32HttpServer.Lib.Serial
import W32HttpServer.ThreadPool
import W32HttpServer.PoolSystem
import W32HttpServer.Wakeup
import W32HttpServer.Shutdown
import W32HttpServer.Win9xServer
import W32HttpServer.NtServer
import W32HttpServer.NtOwnership
import W32HttpServer.NtAlone
import W32HttpServer.NtSerial
import W32HttpServer.AcceptPool
import W32HttpServer.MainWindow
import W32HttpServer.Layout
import W32HttpServer.Lib.Record
import W32HttpServer.Conversation
import W32HttpServer.AnnouncedLength
import W32HttpServer.PoolHandles
import W32HttpServer.Startup
import W32HttpServer.FolderPicker
import W32HttpServer.Settings
import W32HttpServer.StartButton
import W32HttpServer.ListeningSocket
import W32HttpServer.PoolPairing
import W32HttpServer.ConfigLifetime
import W32HttpServer.Logging
import W32HttpServer.Lib.PrefixTable
import W32HttpServer.MagicNumbers
import W32HttpServer.ResponseFraming
import W32HttpServer.DirectoryBuffers
import W32HttpServer.FileBody
import W32HttpServer.Download
import W32HttpServer.Lib.Reading
import W32HttpServer.ListingPage
import W32HttpServer.Client
import W32HttpServer.Mirror
import W32HttpServer.FindHeader
import W32HttpServer.ContentType
import W32HttpServer.SendableHead
import W32HttpServer.ReceiveBuffer
import W32HttpServer.ShutdownPackets
