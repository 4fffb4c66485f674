import Zvbi.GuardedRuns
import Zvbi.StreamMachine
import Zvbi.WordBitmap
import Zvbi.CyclicOrder
import Zvbi.PackedDigits
import Zvbi.Hamming
import Zvbi.XdsSeparator
import Zvbi.XdsDemux
import Zvbi.XdsReception
import Zvbi.XdsTransmission
import Zvbi.PfcDemux
import Zvbi.PfcStream
import Zvbi.PfcReception
import Zvbi.PfcErrors
import Zvbi.IdlDemux
import Zvbi.IdlService
import Zvbi.PageTable
import Zvbi.PageTablePages
import Zvbi.PageTableSet
import Zvbi.PageTableVector
import Zvbi.Caption
import Zvbi.CaptionFrame
import Zvbi.CaptionRows
import Zvbi.CaptionRowRuns
import Zvbi.RecordHeap
import Zvbi.LinkedRings
import Zvbi.NodeLists
import Zvbi.PageCache
import Zvbi.BcdArithmetic
import Zvbi.PageCacheAccounts
import Zvbi.PageCacheReferences
import Zvbi.PageCacheEviction
import Zvbi.PageCachePut
import Zvbi.PageCacheRuns
import Zvbi.PageCacheVersions
import Zvbi.PageCacheSelection
import Zvbi.PageCacheFailure
import Zvbi.PageCacheLending
import Zvbi.TopNavigation
import Zvbi.PageCacheForeach
import Zvbi.PageCacheWalk
import Zvbi.PageCacheTraversal
import Zvbi.WindowReader
import Zvbi.DvbFrame
import Zvbi.DvbDemux
import Zvbi.DvbFrameOrder
import Zvbi.DvbPesReader
import Zvbi.DvbTsReader
import Zvbi.DvbChunks
import Zvbi.DvbTransport
import Zvbi.DvbTsStepping
import Zvbi.DvbBadData
import Zvbi.DvbMuxUnits
import Zvbi.DvbMux
import Zvbi.DvbMuxLayout
import Zvbi.DvbMuxPackets
import Zvbi.DvbMuxStreams
import Zvbi.DvbMuxCoding
import Zvbi.DvbMuxParity
import Zvbi.DvbMultiplex
import Zvbi.DvbRawSegments
import Zvbi.DvbSlicedRoundTrip
import Zvbi.Hamming24
import Zvbi.AffineBits
import Zvbi.Hamming24Coding
import Zvbi.PopPointers
import Zvbi.DrcsConversion
import Zvbi.ExtensionPackets
import Zvbi.TripletFields
import Zvbi.VpsProgramId
import Zvbi.VpsEncoding
import Zvbi.TeletextHeader
import Zvbi.TeletextLop
import Zvbi.HeaderComparison
import Zvbi.TeletextRows
import Zvbi.TeletextParity
import Zvbi.TeletextTransmission
import Zvbi.TeletextAcquisition
import Zvbi.EnhancementPackets
import Zvbi.ProxyDaemon
import Zvbi.ProxyToken
import Zvbi.ProxyOwner
import Zvbi.ProxyWaiting
import Zvbi.ProxyChannels
import Zvbi.ProxyQueue
import Zvbi.ProxyFrames
import Zvbi.ProxyFrameRuns
import Zvbi.ProxyForcedFree
import Zvbi.CaptionFields
import Zvbi.Cc608Decoder
import Zvbi.Cc608Repeat
import Zvbi.Cc608Format
import Zvbi.Cc608Commands
import Zvbi.Cc608Rows
import Zvbi.Cc608Dirty
import Zvbi.Cc608Changes
import Zvbi.SlicedFilter
import Zvbi.SlicedFeed
import Zvbi.ProxyFrameForward
import Zvbi.MotLinks
import Zvbi.MotTables
import Zvbi.ProxyReplies
import Zvbi.ProxyServiceUpdate
import Zvbi.StructLayout
import Zvbi.ProxyMessageBounds
import Zvbi.ProxyFraming
import Zvbi.RunningChoice
import Zvbi.ProxyCycles
import Zvbi.ProxyTurns
import Zvbi.ProxyRoundRobin
import Zvbi.TeletextEnhance
import Zvbi.TeletextEnhanceBounds
import Zvbi.TeletextFormat
import Zvbi.TeletextTiling
import Zvbi.PageCacheCounts
import Zvbi.TeletextStation
import Zvbi.PageUnion
import Zvbi.TypedPages
import Zvbi.MipSubpages
import Zvbi.TeletextReferences
import Zvbi.TeletextReferenceRuns
import Zvbi.BttLayout
import Zvbi.RawDecoder
import Zvbi.RawPatterns
import Zvbi.RawAssignments
import Zvbi.RawServices
import Zvbi.GrownWindow
import Zvbi.SamplingWindow
import Zvbi.SamplingChecks
import Zvbi.RawLineNumbers
import Zvbi.BitSlicer
import Zvbi.BitSlicerReads
import Zvbi.BitSlicerOutput
import Zvbi.BlockStore
import Zvbi.ExportBuffer
import Zvbi.ExportTargets
import Zvbi.EventHandlers
import Zvbi.EventRegistry
import Zvbi.EventDelivery
import Zvbi.ChannelSwitch
import Zvbi.LinkedRecords
import Zvbi.DeferredTriggers
import Zvbi.Gregorian
import Zvbi.PilTime
import Zvbi.PilLocalTime
import Zvbi.PilValidity
import Zvbi.PilWindows
import Zvbi.TeletextLocalTime
import Zvbi.TriggerDates
import Zvbi.TriggerStrings
import Zvbi.TriggerParsing
import Zvbi.TriggerAttributes
import Zvbi.StringConversion
import Zvbi.PageText
import Zvbi.TerminalText
import Zvbi.PageRendering
import Zvbi.DecoderHandlers
import Zvbi.IdlDummyBytes
import Zvbi.PageTableInvariant
import Zvbi.CursorLists
import Zvbi.PageTableIteration
