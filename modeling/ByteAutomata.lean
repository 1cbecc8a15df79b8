import ByteAutomata.Alphabet
import ByteAutomata.Fault
import ByteAutomata.Table
import ByteAutomata.Arena
import ByteAutomata.Exploration
import ByteAutomata.Closure
import ByteAutomata.Union
import ByteAutomata.SubsetConstruction
import ByteAutomata.SparseSet
import ByteAutomata.Run
import ByteAutomata.RuneSet
import ByteAutomata.Unicode.Database
import ByteAutomata.Unicode.Property
import ByteAutomata.Unicode.Standard
import ByteAutomata.Template
import ByteAutomata.Config
import ByteAutomata.Regexp.Tree
import ByteAutomata.Fragment.Glob
import ByteAutomata.Fragment.Folded
import ByteAutomata.Fragment.Complement
import ByteAutomata.Fragment.RuneTrie
import ByteAutomata.Fragment.AnyRune
import ByteAutomata.Regexp.Compile
import ByteAutomata.Regexp.Reading
import ByteAutomata.Pattern
import ByteAutomata.Matcher
import ByteAutomata.Config.Document
import ByteAutomata.Description
import ByteAutomata.Proofs.TableCells
import ByteAutomata.Proofs.UnionReports
import ByteAutomata.Proofs.Extraction
import ByteAutomata.Proofs.RuneSets
import ByteAutomata.Proofs.ByteFragments
import ByteAutomata.Proofs.SetNames
import ByteAutomata.Proofs.Templates
import ByteAutomata.Proofs.Plans
import ByteAutomata.Proofs.UnionRelocation
import ByteAutomata.Proofs.EngineChoice
import ByteAutomata.Proofs.Histories
import ByteAutomata.Proofs.MatcherInvariants
import ByteAutomata.Proofs.UnicodeLaws
import ByteAutomata.Proofs.RegexpAtoms
import ByteAutomata.Proofs.RegexpReading
import ByteAutomata.Proofs.RegexpFragments
import ByteAutomata.Proofs.RegexpMeanings
import ByteAutomata.Proofs.SharedTemplates
import ByteAutomata.Proofs.SelfEpsilons
import ByteAutomata.Proofs.ExcludedValues
import ByteAutomata.Proofs.SubsetBudgets
import ByteAutomata.Proofs.UnionBounds
import ByteAutomata.Proofs.RegexpRefusals
import ByteAutomata.Proofs.FrontierReports
import ByteAutomata.Proofs.FaithfulGrafts
import ByteAutomata.Proofs.Compaction
import ByteAutomata.Proofs.FoldedMeanings
import ByteAutomata.Proofs.SingleStateRuns
import ByteAutomata.Proofs.RuneSetAlgebra
import ByteAutomata.Proofs.WildcardEscapes
import ByteAutomata.Proofs.StepPaths
import ByteAutomata.Proofs.ClosureMembers
import ByteAutomata.Proofs.CanonicalTables
import ByteAutomata.Proofs.SetHistories
