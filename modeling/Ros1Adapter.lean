import Ros1Adapter.SceneJson
import Ros1Adapter.PatternResiduals
import Ros1Adapter.SceneJsonText
import Ros1Adapter.SceneDocument
import Ros1Adapter.SceneYaml
import Ros1Adapter.ActionRules
import Ros1Adapter.SceneFiles
import Ros1Adapter.SceneStore
import Ros1Adapter.SceneStoreSaving
import Ros1Adapter.SceneStoreSteps
import Ros1Adapter.SceneStoreApplied
import Ros1Adapter.SceneStoreAtomic
import Ros1Adapter.SceneStoreDigests
import Ros1Adapter.BoundedZipper
import Ros1Adapter.SceneStoreHistory
import Ros1Adapter.SceneStoreExternal
import Ros1Adapter.SceneFingerprint
import Ros1Adapter.SceneStoreReceipts
import Ros1Adapter.SceneDocumentNormal
import Ros1Adapter.SceneStoreValid
import Ros1Adapter.SceneStoreReopen
import Ros1Adapter.SceneCompile
import Ros1Adapter.SceneProjection
import Ros1Adapter.SceneProjectionAccepts
import Ros1Adapter.SceneNode
import Ros1Adapter.SimulationClient
import Ros1Adapter.SimulationDelivery
import Ros1Adapter.RobotControl
import Ros1Adapter.RobotBookkeeping
import Ros1Adapter.RobotSlots
import Ros1Adapter.RobotQuiescence
import Ros1Adapter.RobotCommands
import Ros1Adapter.RobotOutcomes
import Ros1Adapter.SerialLine
import Ros1Adapter.RobotOrder
import Ros1Adapter.ReconnectBudget
import Ros1Adapter.FairRounds
import Ros1Adapter.SceneService
import Ros1Adapter.SceneServiceAnswers
import Ros1Adapter.SceneGeneration
import Ros1Adapter.LidarControl
import Ros1Adapter.LidarControlBooks
import Ros1Adapter.LidarControlOrder
import Ros1Adapter.LidarControlAnswers
import Ros1Adapter.SceneTap
import Ros1Adapter.SceneTapTruth
import Ros1Adapter.DoubleSums
import Ros1Adapter.SceneValues
import Ros1Adapter.SceneNodeReceipts
import Ros1Adapter.SceneNodeReplay
import Ros1Adapter.AsyncRosServices
import Ros1Adapter.MotionPublishers
import Ros1Adapter.SceneTextCaches
import Ros1Adapter.RecordFacts
import Ros1Adapter.RecordHistory
import Ros1Adapter.BagFinalization
import Ros1Adapter.BagRecovery
import Ros1Adapter.StatusFrames
import Ros1Adapter.StatusSplit
import Ros1Adapter.StatusPass
import Ros1Adapter.MemberTable
import Ros1Adapter.MemberBatches
import Ros1Adapter.MemberFailures
import Ros1Adapter.PublisherRegistry
import Ros1Adapter.PublisherOutcomes
import Ros1Adapter.CoupledRuns
import Ros1Adapter.PythonFloat
import Ros1Adapter.ReceiptRetention
import Ros1Adapter.RequestFingerprints
import Ros1Adapter.SceneAssembly
import Ros1Adapter.SceneCompileLossless
import Ros1Adapter.SceneProjectionCaches
import Ros1Adapter.MarkerIdentities
import Ros1Adapter.JsonAutomata
import Ros1Adapter.JsonLexing
import Ros1Adapter.JsonParsing
import Ros1Adapter.LidarScans
import Ros1Adapter.ScanPool
import Ros1Adapter.SceneCompactText
import Ros1Adapter.IntegerScalars
import Ros1Adapter.ResetObservation
import Ros1Adapter.YamlLoading
import Ros1Adapter.BatteryDisplay
import Ros1Adapter.NodeNames
import Ros1Adapter.PointMaps
import Ros1Adapter.PortablePatterns
import Ros1Adapter.PositioningWindow
import Ros1Adapter.RecordExclusion
import Ros1Adapter.RosMasterDeadlines
import Ros1Adapter.VisionCadence
import Ros1Adapter.YamlRecursion
import Ros1Adapter.RecordAccounts
import Ros1Adapter.RecordSnapshots
import Ros1Adapter.AsyncRosRuns
import Ros1Adapter.ServiceHelperDispatch
