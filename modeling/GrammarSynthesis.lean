import GrammarSynthesis.Catalog
import GrammarSynthesis.Grammar.Attributes
import GrammarSynthesis.Grammar.Definition
import GrammarSynthesis.Grammar.Fault
import GrammarSynthesis.Grammar.ImportClosure
import GrammarSynthesis.Grammar.Module
import GrammarSynthesis.Grammar.Production
import GrammarSynthesis.Grammar.Sentence
import GrammarSynthesis.Grammar.SortName
import GrammarSynthesis.Grammar.SortNumbering
import GrammarSynthesis.Grammar.SynthesisError
import GrammarSynthesis.IndexSet
import GrammarSynthesis.Journal
import GrammarSynthesis.Main
import GrammarSynthesis.Order
import GrammarSynthesis.Proofs.Assembly
import GrammarSynthesis.Proofs.BaseImports
import GrammarSynthesis.Proofs.BuildOrder
import GrammarSynthesis.Proofs.BundleDefinition
import GrammarSynthesis.Proofs.CastCount
import GrammarSynthesis.Proofs.CellClasses
import GrammarSynthesis.Proofs.CellForms
import GrammarSynthesis.Proofs.CellKinds
import GrammarSynthesis.Proofs.CellLanguage
import GrammarSynthesis.Proofs.ExactRestriction
import GrammarSynthesis.Proofs.Extension
import GrammarSynthesis.Proofs.Failures
import GrammarSynthesis.Proofs.FirstOccurrences
import GrammarSynthesis.Proofs.FixedPoint
import GrammarSynthesis.Proofs.FlatImports
import GrammarSynthesis.Proofs.FlatSeed
import GrammarSynthesis.Proofs.Flattening
import GrammarSynthesis.Proofs.FollowSet
import GrammarSynthesis.Proofs.InjectionCycles
import GrammarSynthesis.Proofs.Layers
import GrammarSynthesis.Proofs.Legibility
import GrammarSynthesis.Proofs.ListElements
import GrammarSynthesis.Proofs.ListForms
import GrammarSynthesis.Proofs.ListRecovery
import GrammarSynthesis.Proofs.ListTrees
import GrammarSynthesis.Proofs.LongestMatch
import GrammarSynthesis.Proofs.Numbering
import GrammarSynthesis.Proofs.NumberingRuns
import GrammarSynthesis.Proofs.Outcome
import GrammarSynthesis.Proofs.PrefixLaw
import GrammarSynthesis.Proofs.Preorder
import GrammarSynthesis.Proofs.PrivateLayer
import GrammarSynthesis.Proofs.ProgramLists
import GrammarSynthesis.Proofs.Reachability
import GrammarSynthesis.Proofs.Reentry
import GrammarSynthesis.Proofs.RepeatedRestriction
import GrammarSynthesis.Proofs.Restriction
import GrammarSynthesis.Proofs.Saturation
import GrammarSynthesis.Proofs.ScaffoldingSorts
import GrammarSynthesis.Proofs.SentenceOrder
import GrammarSynthesis.Proofs.SetRegisters
import GrammarSynthesis.Proofs.SortsKept
import GrammarSynthesis.Proofs.StageSentences
import GrammarSynthesis.Proofs.SyntaxKept
import GrammarSynthesis.Proofs.Terminals
import GrammarSynthesis.Proofs.UnseenModules
import GrammarSynthesis.Proofs.WrittenForms
import GrammarSynthesis.Sample.Lambda
import GrammarSynthesis.Settings.BaseModules
import GrammarSynthesis.Settings.Basic
import GrammarSynthesis.Settings.Capability
import GrammarSynthesis.Synthesis.Bundle
import GrammarSynthesis.Synthesis.Casts
import GrammarSynthesis.Synthesis.Cells
import GrammarSynthesis.Synthesis.FollowRestriction
import GrammarSynthesis.Synthesis.Synthesizer
import GrammarSynthesis.Synthesis.UserList
import GrammarSynthesis.Synthesis.Vocabulary
import GrammarSynthesis.Text.Blank
import GrammarSynthesis.Text.ExtendingMark
import GrammarSynthesis.Text.Joined
import GrammarSynthesis.Text.Quoted
import GrammarSynthesis.Text.Rest
import GrammarSynthesis.Text.Unprintable
