import ScopeSelectors.Text.Ranges
import ScopeSelectors.Text.Printable
import ScopeSelectors.Text.GraphemeExtend
import ScopeSelectors.Text.WhiteSpace
import ScopeSelectors.Text.Escape
import ScopeSelectors.Text.Terminal
import ScopeSelectors.Scope.Name
import ScopeSelectors.Scope.Path
import ScopeSelectors.Selector.Pattern
import ScopeSelectors.Selector.Node
import ScopeSelectors.Selector.Error
import ScopeSelectors.Selector.Token
import ScopeSelectors.Selector.Parse
import ScopeSelectors.Selector.Basic
import ScopeSelectors.Specificity
import ScopeSelectors.Match
import ScopeSelectors.Log
import ScopeSelectors.Cache
import ScopeSelectors.Rule.Table
import ScopeSelectors.Rule.Shared
import ScopeSelectors.Text.Case
import ScopeSelectors.Command.Config
import ScopeSelectors.Command.Report
import ScopeSelectors.Command.Json
import ScopeSelectors.Command.Render
import ScopeSelectors.Command.Interface
import ScopeSelectors.Command.Similarity
import ScopeSelectors.Command.Usage
import ScopeSelectors.Command.Args
import ScopeSelectors.Command.Run
import ScopeSelectors.Main
import ScopeSelectors.Proofs.Grammar
import ScopeSelectors.Proofs.TokenGrammar
import ScopeSelectors.Proofs.Descent
import ScopeSelectors.Proofs.Lexing
import ScopeSelectors.Proofs.Language
import ScopeSelectors.Proofs.Chains
import ScopeSelectors.Proofs.Resolution
import ScopeSelectors.Proofs.Hits
import ScopeSelectors.Proofs.CacheRuns
import ScopeSelectors.Proofs.RuleReport
import ScopeSelectors.Proofs.DescendantLaws
import ScopeSelectors.Proofs.FaultSites
import ScopeSelectors.Proofs.ErrorOffsets
import ScopeSelectors.Proofs.PackedOrder
import ScopeSelectors.Proofs.Sources
import ScopeSelectors.Proofs.SelectorLists
import ScopeSelectors.Proofs.PathText
import ScopeSelectors.Proofs.PatternPrefixes
import ScopeSelectors.Proofs.LexerRuns
import ScopeSelectors.Proofs.ReaderCalls
