import ModMp.CString
import ModMp.CStringSearch
import ModMp.Input
import ModMp.InputParameters
import ModMp.IndexerAndCommand
import ModMp.InputBounds
import ModMp.InputRouting
import ModMp.InputPath
import ModMp.JsonString
import ModMp.UtilJson
import ModMp.SqlLiteral
import ModMp.DbQueryParameters
import ModMp.Runs
import ModMp.Tickets
import ModMp.ErrorMessages
import ModMp.SharedErrorTable
import ModMp.ErrorRecords
import ModMp.ErrorTableBound
import ModMp.DbConnectionPool
import ModMp.IndexManager
import ModMp.JsonLexer
import ModMp.JsonReader
import ModMp.JsonExpansion
import ModMp.OutputJson
import ModMp.OutputJsonDecoding
import ModMp.DirSyncStatus
import ModMp.DirSyncDecoding
import ModMp.ReadDir
import ModMp.ReadDirList
import ModMp.StringPool
import ModMp.MusicFile
import ModMp.Id3Tags
import ModMp.Id3Numbers
import ModMp.FlacTags
import ModMp.FlacEntries
import ModMp.TagReaders
import ModMp.Buffers
import ModMp.FlacFile
import ModMp.FlacDelivery
import ModMp.FlacStream
import ModMp.Allocations
import ModMp.FlacMemory
import ModMp.FlacMemoryRun
import ModMp.OggEncode
import ModMp.ServerConfig
import ModMp.RequestHandler
import ModMp.ServerErrorLog
import ModMp.Interleave
import ModMp.Mp3File
import ModMp.SlotMask
import ModMp.SlotFifo
import ModMp.DecodingQueue
import ModMp.QueueRefinement
import ModMp.QueueRuns
import ModMp.QueueLock
import ModMp.QueueLookup
import ModMp.QueueLookupRuns
import ModMp.QueueClients
import ModMp.QueueTargets
import ModMp.QueueChain
import ModMp.Segments
import ModMp.MusicQueryUrl
import ModMp.MusicQueryFields
import ModMp.MusicQueryWords
import ModMp.MusicQuery
import ModMp.MusicQueryPages
import ModMp.MusicQueryPaging
import ModMp.MusicQueryRaces
import ModMp.Player
import ModMp.PlayerLoads
import ModMp.Shuffles
import ModMp.PlaylistShuffle
import ModMp.UiTable
import ModMp.PlayerUi
import ModMp.PlaylistStamps
import ModMp.PlaylistSort
import ModMp.PairOff
import ModMp.PlaylistReindex
import ModMp.PlaylistUi
import ModMp.PlaylistRows
import ModMp.Browser
import ModMp.BrowserLoads
import ModMp.ErrorTexts
import ModMp.ErrorDuplicate
import ModMp.WhereConditions
import ModMp.Delimited
import ModMp.IntegerConditions
import ModMp.Wildcards
import ModMp.AsteriskSearch
import ModMp.MusicIndexer
import ModMp.MusicIndexerSorting
import ModMp.MusicIndexerSteps
import ModMp.MusicIndexerSortItems
import ModMp.MusicIndexerSortList
import ModMp.MusicIndexerClauses
import ModMp.MusicIndexerPoints
import ModMp.MusicIndexerEffects
import ModMp.MusicIndexerErrors
import ModMp.MusicIndexerWords
import ModMp.DirSync
import ModMp.ErrorLog
import ModMp.PlayerControls
import ModMp.MusicIndexerOutcome
import ModMp.UrlRequests
import ModMp.BrowserRequests
import ModMp.SlotCount
import ModMp.QueueSize
import ModMp.PlaylistRequests
import ModMp.SearchRequests
import ModMp.MusicIndexerQuery
import ModMp.BrowserSelection
import ModMp.MusicUi
import ModMp.ResponseBytes
