import LintHost.Main
import LintHost.Proofs.TwoRuns
import LintHost.Proofs.PathText
import LintHost.Proofs.History
import LintHost.Proofs.SharedCache
import LintHost.Proofs.Place
import LintHost.Proofs.EngineCalls
import LintHost.Proofs.EngineFile
import LintHost.Proofs.Provenance
import LintHost.Proofs.EnginePath
import LintHost.Proofs.CopyFaults
import LintHost.Proofs.Fallback
import LintHost.Proofs.Layers
import LintHost.Proofs.CheckFaults
import LintHost.Proofs.LoadFaults
import LintHost.Proofs.Usable
import LintHost.Proofs.Overrides
import LintHost.Proofs.Lookups
import LintHost.Proofs.ChildEnv
import LintHost.Proofs.NodePrefix
import LintHost.Proofs.PrefixMemo
import LintHost.Proofs.GlobalMode
import LintHost.Proofs.Inventory
import LintHost.Proofs.Surroundings
import LintHost.Proofs.DebugJob
import LintHost.Proofs.Writing
import LintHost.Proofs.CommandWords
import LintHost.Proofs.CommandRun
import LintHost.Proofs.Inspection
import LintHost.Proofs.HostInventory
import LintHost.Proofs.Rounding
import LintHost.Proofs.JsonText
import LintHost.Proofs.FileText
import LintHost.Proofs.OtherFiles
import LintHost.Proofs.LogApart
import LintHost.Proofs.Snapshot
import LintHost.Proofs.VariableText
import LintHost.Proofs.EarlierLoads
import LintHost.Proofs.FileLint
import LintHost.Proofs.Nearest
import LintHost.Proofs.Entering
import LintHost.Proofs.ConfigSearch
import LintHost.Proofs.ConfigFaults
import LintHost.Proofs.Locating
import LintHost.Proofs.Verified
import LintHost.Proofs.EngineFaults
import LintHost.Proofs.JobRequest
import LintHost.Proofs.IgnoreFile
import LintHost.Proofs.RuleDirectories
import LintHost.Proofs.OptionFaults
import LintHost.Proofs.JsonEnd
import LintHost.Proofs.OutputText
import LintHost.Proofs.RequestText
import LintHost.Proofs.FileSettings
import LintHost.Proofs.Bounds
import LintHost.Proofs.OneOption
import LintHost.Proofs.BothWays
import LintHost.Proofs.ListText
import LintHost.Proofs.CleanPath
import LintHost.Proofs.RelativePath
import LintHost.Proofs.RealPath
import LintHost.Proofs.ShownPath
