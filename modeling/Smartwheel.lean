import Smartwheel.Manual.Silence
import Smartwheel.Manual.Disarmed
import Smartwheel.Wheel.Silence
import Smartwheel.Wheel.Stop
import Smartwheel.Fusion.Order
import Smartwheel.Fusion.Validity
import Smartwheel.Fusion.Gate
import Smartwheel.Fusion.JoinRun
import Smartwheel.Fusion.WheelTfRun
import Smartwheel.Graph.Agreement
import Smartwheel.Archive.Delivery
import Smartwheel.Driver.WorkQueue
import Smartwheel.Estimation.WorkerRun
import Smartwheel.Feedback.JournalRun
import Smartwheel.Feedback.PollerRun
import Smartwheel.Checkpoint.Consistency
import Smartwheel.Source.JournalRun
import Smartwheel.Source.CameraRun
import Smartwheel.Maps.GoalsRun
import Smartwheel.Interactive.Commands
import Smartwheel.Compaction.Loss
import Smartwheel.HistoryArchive.Recovery
import Smartwheel.Jobs.Detached
import Smartwheel.Jobs.Exclusive
import Smartwheel.Prior.JournalRun
import Smartwheel.Profiles.Saves
import Smartwheel.Calibration.Consistency
import Smartwheel.Capture.Honest
import Smartwheel.Fusion.Late
import Smartwheel.Health.ArchiveRun
import Smartwheel.Imu.H30Packets
import Smartwheel.Imu.OfflineTimeRun
import Smartwheel.Manual.Arming
import Smartwheel.Mapping.Pairing
import Smartwheel.Maps.MapLaws
import Smartwheel.Maps.Traversal
import Smartwheel.Modbus.Field
import Smartwheel.Plane.CapturePairs
import Smartwheel.Plane.Transactions
import Smartwheel.Refinement.Completion
import Smartwheel.Registration.TrajectoryRun
import Smartwheel.Sensors.Epochs
import Smartwheel.Xt.AssemblerFrames
import Smartwheel.Maps.LiveRun
import Smartwheel.Motion.Preview
import Smartwheel.Mapping.GateRun
import Smartwheel.Mapping.BootstrapRun
import Smartwheel.Mapping.BiasRun
import Smartwheel.Mapping.CloudFilterRun
import Smartwheel.Parameters.SaveRun
import Smartwheel.Jobs.LogReading
import Smartwheel.Jobs.Settings
import Smartwheel.Capture.WindowRun
import Smartwheel.Calibration.RecordPairsRun
import Smartwheel.Interactive.Receiving
import Smartwheel.Archive.Policy
import Smartwheel.Plane.Refine
import Smartwheel.Plane.Exact
import Smartwheel.Calibration.Pcd
import Smartwheel.Jobs.Cleanup
import Smartwheel.Motion.PlanarEkf
import Smartwheel.Modbus.Burst
