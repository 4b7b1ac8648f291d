import Yess.Foundation.Program
import Yess.Foundation.Quiet
import Yess.Foundation.Run
import Yess.Foundation.Product
import Yess.Foundation.Sql
import Yess.Foundation.VersionedLog
import Yess.Foundation.KeptLog
import Yess.Foundation.Identifiers
import Yess.Foundation.Cursor
import Yess.Foundation.Reading
import Yess.Foundation.Linearization
import Yess.Foundation.StackBound
import Yess.Db.SqliteProjectionRepo
import Yess.Db.Faults
import Yess.Db.Refusals
import Yess.Ext.Duktape
import Yess.Ext.DukContext
import Yess.Ext.SampleEngine
import Yess.Ext.Fold
import Yess.Ext.Outcomes
import Yess.Ext.FullStack
import Yess.Ext.JsonValue
import Yess.Ext.JsonFormat
import Yess.Handler.Sessions
import Yess.Handler.ReferentialIntegrity
import Yess.Handler.StreamLog
import Yess.Handler.PlayProjection
import Yess.Handler.ProjectionStore
import Yess.Handler.PlaySteps
import Yess.Handler.PlayStack
import Yess.Handler.PlayHistory
import Yess.Handler.PlayIsolation
import Yess.Handler.PlayOutcome
import Yess.Handler.ConcurrentPlays
import Yess.Handler.History
import Yess.Handler.Independence
import Yess.Handler.StreamVersion
import Yess.Handler.TypeMerge
import Yess.Handler.Identifiers
import Yess.Handler.CrashSafety
import Yess.Handler.Handle
import Yess.Handler.PayloadsReadable
import Yess.Handler.TypeReads
import Yess.Handler.StreamReads
import Yess.Handler.Capacity
import Yess.Handler.ReportedIds
import Yess.Handler.LastEvent
import Yess.Handler.DeleteAtomicity
import Yess.Handler.EntityValues
import Yess.Handler.Replies
import Yess.Handler.PushRoundTrip
import Yess.Handler.Interruptions
import Yess.Handler.Processes
import Yess.Handler.PlayBudget
import Yess.GrpcService
import Yess.Grpc.PushFrame
import Yess.Grpc.StatusCodes
import Yess.Grpc.Service
import Yess.Grpc.EventStore
import Yess.Grpc.Threads
import Yess.Cmd.DomainCommands
import Yess.Cmd.Numerals
import Yess.Cmd.Shell
import Yess.Cmd.LineSafety
import Yess.Cmd.PlayAgreement
import Yess.Cmd.TokenCoverage
import Yess.Cmd.Rendering
import Yess.Cmd.NumberArguments
import Yess.Cmd.Session
import Yess.Cmd.Scripts
import Yess.Msg.Serializer
import Yess.FrontEnds
