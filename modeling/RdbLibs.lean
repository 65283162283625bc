import RdbLibs.Foundations.MachineWord
import RdbLibs.Foundations.WhileLoop
import RdbLibs.Foundations.CircularWindow
import RdbLibs.Foundations.BoundedQueue
import RdbLibs.Foundations.Runs
import RdbLibs.Foundations.CheckedMemory
import RdbLibs.Foundations.CheckedLoop
import RdbLibs.Foundations.BlockAccess
import RdbLibs.Foundations.Postcondition
import RdbLibs.Foundations.ByteCodec
import RdbLibs.Foundations.ObjectLifetimes
import RdbLibs.Foundations.TextSearch
import RdbLibs.Foundations.FileStream
import RdbLibs.Foundations.BlockBuffer
import RdbLibs.Foundations.GridLayout
import RdbLibs.Foundations.CellLoops
import RdbLibs.Foundations.BlockHeap
import RdbLibs.Foundations.BlockStreams
import RdbLibs.Foundations.FallibleRuns
import RdbLibs.Foundations.MaximalRuns
import RdbLibs.Foundations.Trimming
import RdbLibs.Foundations.FirstDifference
import RdbLibs.Foundations.SequenceEdits
import RdbLibs.Buffer.CVRingBuffer.Model
import RdbLibs.Buffer.CVRingBuffer.Invariant
import RdbLibs.Buffer.CVRingBuffer.Delete
import RdbLibs.Buffer.CVRingBuffer.Write
import RdbLibs.Buffer.CVRingBuffer.Read
import RdbLibs.Buffer.CVRingBuffer.Calls
import RdbLibs.Buffer.CVRingBuffer.Reachable
import RdbLibs.Buffer.CVRingBuffer.IndexSafety
import RdbLibs.Buffer.CVRingBuffer.Producer
import RdbLibs.Buffer.CVRingBuffer.ProducerConsumer
import RdbLibs.Buffer.CVRingBuffer.Consumer
import RdbLibs.Buffer.CRingBuffer.Model
import RdbLibs.Buffer.CRingBuffer.Vector
import RdbLibs.Buffer.CRingBuffer.Reachable
import RdbLibs.Buffer.CRingBuffer.WriteOverloads
import RdbLibs.NetIO.MessageHeader
import RdbLibs.NetIO.CNetMessageData
import RdbLibs.NetIO.AllocatedMessage
import RdbLibs.NetIO.CTcpSession
import RdbLibs.NetIO.TcpTransfer
import RdbLibs.NetIO.TcpFraming
import RdbLibs.NetIO.TcpLossless
import RdbLibs.NetIO.FrameAcceptance
import RdbLibs.NetIO.HeaderRoundTrip
import RdbLibs.NetIO.CUdpSession
import RdbLibs.NetIO.UdpReceive
import RdbLibs.NetIO.GuardedMessage
import RdbLibs.NetIO.LockDiscipline
import RdbLibs.NetIO.MessageMemory
import RdbLibs.NetIO.CTcpServer.Output
import RdbLibs.NetIO.CTcpServer.OutputMessage
import RdbLibs.NetIO.CTcpServer.OutputDelivery
import RdbLibs.NetIO.CTcpServer.OutputIntegrity
import RdbLibs.NetIO.CTcpServer.Sessions
import RdbLibs.NetIO.CTcpServer.SessionAccounting
import RdbLibs.NetIO.CTcpServer.HeartBeat
import RdbLibs.NetIO.CTcpServer.Lifecycle
import RdbLibs.NetIO.CClientIO.ClientBuffer
import RdbLibs.NetIO.CClientIO.CTcpClient
import RdbLibs.NetIO.CClientIO.CUdpClient
import RdbLibs.NetIO.CClientIO.BufferBounds
import RdbLibs.NetIO.CClientIO.DataSize
import RdbLibs.NetIO.CClientIO.ClientFrames
import RdbLibs.NetIO.CClientIO.ClientFraming
import RdbLibs.NetIO.CClientIO.TransferBounds
import RdbLibs.StrUtils.HexText
import RdbLibs.FileIO.FileUtils
import RdbLibs.FileIO.InfoText
import RdbLibs.FileIO.CRawVideoFileIO.InfoFile
import RdbLibs.FileIO.CFileIO
import RdbLibs.FileIO.CRawAudioFileIO.Model
import RdbLibs.FileIO.CRawAudioFileIO.Opening
import RdbLibs.FileIO.CRawAudioFileIO.InfoFile
import RdbLibs.FileIO.CRawAudioFileIO.Writing
import RdbLibs.FileIO.CRawAudioFileIO.Input
import RdbLibs.FileIO.CRawAudioFileIO.Sampling
import RdbLibs.FileIO.CRawAudioFileIO.Output
import RdbLibs.KbInput.CConsoleMgr
import RdbLibs.Logging.CLogger
import RdbLibs.Logging.Sinks
import RdbLibs.Logging.Levels
import RdbLibs.Thread.Event
import RdbLibs.Thread.AutoReset
import RdbLibs.Thread.ManualReset
import RdbLibs.Thread.WaitForMultipleObjects
import RdbLibs.Thread.ThreadBase
import RdbLibs.Thread.LiveWorker
import RdbLibs.FileIO.CRawAudioFileIO.SampleInput
import RdbLibs.FileIO.CRawAudioFileIO.SampledFrames
import RdbLibs.FileIO.CWavFileIO.Model
import RdbLibs.FileIO.CWavFileIO.Calls
import RdbLibs.FileIO.CWavFileIO.SampleStorage
import RdbLibs.FileIO.CWavFileIO.EndOfFile
import RdbLibs.FileIO.CWavFileIO.ReadPaths
import RdbLibs.Buffer.CSimpleAudioBuffer.Model
import RdbLibs.Buffer.CSimpleAudioBuffer.Layouts
import RdbLibs.Buffer.CSimpleAudioBuffer.AccessPaths
import RdbLibs.Buffer.CSimpleDataBuffer.Model
import RdbLibs.Buffer.GrantedBlocks
import RdbLibs.Buffer.CSimpleDataBuffer.Items
import RdbLibs.Buffer.RangeChecks
import RdbLibs.Buffer.BlockTransfers
import RdbLibs.Buffer.SequentialTransfers
import RdbLibs.Buffer.CSimpleDataBuffer.Lifecycle
import RdbLibs.Buffer.CAudioBufferBase
import RdbLibs.Buffer.CSimpleVideoBuffer.Model
import RdbLibs.Buffer.CSimpleVideoBuffer.Calls
import RdbLibs.Buffer.CSimpleVideoBuffer.AccessBounds
import RdbLibs.Buffer.CSimpleVideoBuffer.BlockLayout
import RdbLibs.Buffer.CSimpleVideoBuffer.FrameLengths
import RdbLibs.Buffer.CSimpleVideoBuffer.Allocation
import RdbLibs.Buffer.CSimpleVideoBuffer.Pixels
import RdbLibs.Other.PrivateProfile.Model
import RdbLibs.Other.PrivateProfile.History
import RdbLibs.Other.PrivateProfile.Lookup
import RdbLibs.GST.CMediaBuffer
import RdbLibs.GST.BufferLock
import RdbLibs.Other.RefPtr.Model
import RdbLibs.Other.RefPtr.Release
import RdbLibs.Other.RefPtr.Assignment
import RdbLibs.Other.RefPtr.Counting
import RdbLibs.XML.Document
import RdbLibs.XML.XmlObject
import RdbLibs.XML.TextBuffer
import RdbLibs.XML.Lookups
import RdbLibs.XML.Agreement
import RdbLibs.XML.FileLoading
import RdbLibs.XML.BufferBounds
import RdbLibs.Buffer.CVectorBuffer
import RdbLibs.Buffer.CBuffer
import RdbLibs.StrUtils.HexRejection
import RdbLibs.StrUtils.Spaces
import RdbLibs.FileIO.NumericStrings
import RdbLibs.StrUtils.Comparison
import RdbLibs.StrUtils.FindInString
import RdbLibs.StrUtils.StripItem
import RdbLibs.StrUtils.Tokenizer
import RdbLibs.FileIO.CRawAudioFileIO.Positions
import RdbLibs.FileIO.CRawVideoFileIO.Model
import RdbLibs.FileIO.EndOfInput
import RdbLibs.FileIO.LoopingReads
import RdbLibs.FileIO.PaddedReads
import RdbLibs.Foundations.TextPositions
import RdbLibs.NetIO.CClientIO.ExitMessages
import RdbLibs.NetIO.CClientIO.StreamType
import RdbLibs.NetIO.ServerAndPort
import RdbLibs.NetIO.UriParams.Decoding
import RdbLibs.NetIO.UriParams.Outcomes
import RdbLibs.PlugIn.VersionText
import RdbLibs.FileIO.CRawVideoFileIO.FrameSize
import RdbLibs.FileIO.CRawVideoFileIO.SingleFrames
import RdbLibs.FileIO.SoughtFrames
import RdbLibs.XML.BooleanWords
import RdbLibs.XML.BufferLookups
import RdbLibs.XML.UnchangedDocument
import RdbLibs.Logging.CLogMessageList
import RdbLibs.Other.PrivateProfile.BufferContract
import RdbLibs.Thread.SyncObjects
import RdbLibs.Buffer.CRingBuffer.ProducerConsumer
import RdbLibs.XML.Siblings
import RdbLibs.NetIO.CTcpServer.InputReadings
import RdbLibs.NetIO.CTcpServer.InputSession
import RdbLibs.FileIO.TextLines
import RdbLibs.NetIO.CTcpServer.RequestReply
import RdbLibs.NetIO.CUdpServer.Service
import RdbLibs.Thread.MutexOwners
import RdbLibs.NetIO.CUdpServer.Datagrams
