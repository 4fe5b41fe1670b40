import Dragonfly.QueueCancellation
import Dragonfly.LineSplitter
import Dragonfly.TailTruncation
import Dragonfly.FlywheelLines
import Dragonfly.TailIdle
import Dragonfly.TailRotation
import Dragonfly.Pipeline
import Dragonfly.TimerLedger
import Dragonfly.AnalyzerStack
import Dragonfly.LogRotation
import Dragonfly.OutputReopening
import Dragonfly.WebService
import Dragonfly.ShippedSurvival
import Dragonfly.DeadlockFreedom
import Dragonfly.SentinelScans
import Dragonfly.Routing
import Dragonfly.SourceAgreement
import Dragonfly.QueueHops
import Dragonfly.IpcOutput
import Dragonfly.RowBounds
import Dragonfly.ConnectionReset
import Dragonfly.ResponderSetup
import Dragonfly.DomainLabels
import Dragonfly.DatagramSending
import Dragonfly.IoDispatch
import Dragonfly.BatchRead
import Dragonfly.RotationFailure
import Dragonfly.LineChunks
import Dragonfly.FlatFiles
import Dragonfly.BufferBounds
import Dragonfly.NonblockingReceive
import Dragonfly.Timestamps
import Dragonfly.CharacterCounts
import Dragonfly.ThirdLevel
import Dragonfly.SectorFlags
import Dragonfly.LetterCase
import Dragonfly.FeatureNumbers
import Dragonfly.RedisQuota
import Dragonfly.OutlierRuns
import Dragonfly.PackedData
import Dragonfly.MessagePackParts
import Dragonfly.PackedEvents
import Dragonfly.Json
import Dragonfly.JsonGrammar
import Dragonfly.JsonReading
import Dragonfly.JsonWriting
import Dragonfly.JsonAccepting
import Dragonfly.JsonReencoding
import Dragonfly.ShippedFormats
