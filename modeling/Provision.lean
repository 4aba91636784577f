import Provision.Binding.Basic
import Provision.Binding.Environment
import Provision.Binding.Lines
import Provision.CommandLine.Arguments
import Provision.CommandLine.Disk
import Provision.CommandLine.Program
import Provision.Converge
import Provision.Crontab
import Provision.Decimal.Binary64
import Provision.Decimal.Shortest
import Provision.Display.Run
import Provision.Display.Text
import Provision.Error
import Provision.Execution
import Provision.Fault
import Provision.Files.Access
import Provision.Files.Tree
import Provision.Guard
import Provision.Host.Call
import Provision.Host.World
import Provision.Inventory.Basic
import Provision.Inventory.Filter
import Provision.Job
import Provision.Json.Basic
import Provision.Json.Decode
import Provision.Json.Printer
import Provision.Json.Source
import Provision.LoadError
import Provision.Loading
import Provision.Local.Host
import Provision.Local.Jobs
import Provision.Local.Packages
import Provision.Local.System
import Provision.Local.WorkingCopies
import Provision.Machine.Basic
import Provision.Machine.Description
import Provision.Main
import Provision.Path
import Provision.Pattern.Basic
import Provision.Pattern.CharSet
import Provision.Pattern.Parser
import Provision.Pattern.Replace
import Provision.Recipe.Basic
import Provision.Recipe.Declaration
import Provision.Recipe.Text
import Provision.Report.Basic
import Provision.Report.Codec
import Provision.Report.Diff
import Provision.Report.Outcome
import Provision.Resource.Basic
import Provision.Resource.Command
import Provision.Resource.Kind
import Provision.Resource.LineEdit
import Provision.Resource.Ownership
import Provision.Resource.Package
import Provision.Resource.RenderedFile
import Provision.Resource.ScheduledJob
import Provision.Resource.Site
import Provision.Resource.Spec
import Provision.Resource.WorkingCopy
import Provision.RunList
import Provision.Settings
import Provision.Shell.Run
import Provision.Shell.Script
import Provision.SortedMap
import Provision.Template.Arithmetic
import Provision.Template.Expr
import Provision.Template.Filter
import Provision.Template.Folder
import Provision.Template.Parser
import Provision.Template.Render
import Provision.Template.Token
import Provision.Template.Value
import Provision.Text.Blank
import Provision.Text.CaseMap
import Provision.Text.Lines
import Provision.Text.Printable
import Provision.Text.Quoted
import Provision.Text.Split
import Provision.Text.Utf8
import Provision.Text.WordChars
import Provision.Toml.Parser
import Provision.Toml.Scalar
import Provision.Toml.Table
import Provision.Proofs.Calls
import Provision.Proofs.CommandEnvironment
import Provision.Proofs.Conflicts
import Provision.Proofs.Conjunction
import Provision.Proofs.Consent
import Provision.Proofs.ConsumedTokens
import Provision.Proofs.CrontabLosses
import Provision.Proofs.CrontabSettling
import Provision.Proofs.CrontabText
import Provision.Proofs.DeclaredGuards
import Provision.Proofs.DistinctKeys
import Provision.Proofs.DocumentOrder
import Provision.Proofs.DryRun
import Provision.Proofs.DueCommands
import Provision.Proofs.Failures
import Provision.Proofs.FaithfulMachine
import Provision.Proofs.Faithfulness
import Provision.Proofs.FileViews
import Provision.Proofs.Foresight
import Provision.Proofs.Idempotence
import Provision.Proofs.Insertions
import Provision.Proofs.JsonFields
import Provision.Proofs.JsonText
import Provision.Proofs.LineReadings
import Provision.Proofs.Lines
import Provision.Proofs.LoadedResources
import Provision.Proofs.LoadedTree
import Provision.Proofs.MachineHost
import Provision.Proofs.MachineReadable
import Provision.Proofs.ManagedCrontab
import Provision.Proofs.Notifications
import Provision.Proofs.NumberText
import Provision.Proofs.Preview
import Provision.Proofs.Progress
import Provision.Proofs.Propagation
import Provision.Proofs.Recovery
import Provision.Proofs.ReplacedTwice
import Provision.Proofs.ReportRoundTrip
import Provision.Proofs.ResourceCalls
import Provision.Proofs.ResourceRoundTrip
import Provision.Proofs.SearchText
import Provision.Proofs.Searches
import Provision.Proofs.SecondPass
import Provision.Proofs.Settling
import Provision.Proofs.SiteStates
import Provision.Proofs.Standstill
import Provision.Proofs.Tables
import Provision.Proofs.TemplateText
import Provision.Proofs.TermValues
import Provision.Proofs.TokenReading
import Provision.Proofs.UndefinedNames
import Provision.Proofs.Verdicts
import Provision.Proofs.FilteredTree
import Provision.Proofs.PendingChanges
import Provision.Proofs.Validation
import Provision.Proofs.InsertionPass
import Provision.Proofs.KeyPatterns
import Provision.Proofs.Defaults
import Provision.Proofs.SpacedTerms
import Provision.Proofs.UntouchedText
import Provision.Proofs.AttributePaths
import Provision.Proofs.FreeTexts
import Provision.Proofs.InventoryKeys
import Provision.Proofs.SparedLookups
import Provision.Proofs.StringPlaces
import Provision.Proofs.CarriedText
import Provision.Proofs.InstalledPackages
import Provision.Proofs.ScheduleText
import Provision.Proofs.PathNames
import Provision.Proofs.FileTrees
import Provision.Proofs.EncodedText
import Provision.Proofs.LocalFiles
