import TokenMacros.Host.Workbench
import TokenMacros.Main
import TokenMacros.Proofs.AdjustedSpacing
import TokenMacros.Proofs.ArgumentWords
import TokenMacros.Proofs.AskedLimits
import TokenMacros.Proofs.BalancedRuns
import TokenMacros.Proofs.BracedTexts
import TokenMacros.Proofs.CaptureMarks
import TokenMacros.Proofs.CaptureTables
import TokenMacros.Proofs.ChunkShapes
import TokenMacros.Proofs.ClosingLabels
import TokenMacros.Proofs.ClosingQuotes
import TokenMacros.Proofs.CodePieces
import TokenMacros.Proofs.ConfigurationFiles
import TokenMacros.Proofs.ConfiguredLimits
import TokenMacros.Proofs.DefinitionLines
import TokenMacros.Proofs.DirectoryOutputs
import TokenMacros.Proofs.DoubledSpaces
import TokenMacros.Proofs.DroppedSpaces
import TokenMacros.Proofs.ExtentLocality
import TokenMacros.Proofs.FixedPoints
import TokenMacros.Proofs.ForeignTokens
import TokenMacros.Proofs.HeredocLocality
import TokenMacros.Proofs.HostRuns
import TokenMacros.Proofs.LeftOutSpaces
import TokenMacros.Proofs.LexemeForms
import TokenMacros.Proofs.LexemeLocality
import TokenMacros.Proofs.LexerTurns
import TokenMacros.Proofs.LoadedDirectories
import TokenMacros.Proofs.LongestCaptures
import TokenMacros.Proofs.LongestNumerals
import TokenMacros.Proofs.LosslessLexing
import TokenMacros.Proofs.MarkStretches
import TokenMacros.Proofs.MatchablePatterns
import TokenMacros.Proofs.MatchingBraces
import TokenMacros.Proofs.MergedOverrides
import TokenMacros.Proofs.OpenTags
import TokenMacros.Proofs.Outlines
import TokenMacros.Proofs.OutputNames
import TokenMacros.Proofs.OwnPatterns
import TokenMacros.Proofs.PartialResults
import TokenMacros.Proofs.PassBlocks
import TokenMacros.Proofs.PatternChunks
import TokenMacros.Proofs.PatternDecomposition
import TokenMacros.Proofs.PatternInstances
import TokenMacros.Proofs.PatternLiterals
import TokenMacros.Proofs.PatternPlaceholders
import TokenMacros.Proofs.PlainInstances
import TokenMacros.Proofs.PluginHosts
import TokenMacros.Proofs.PriorityOrder
import TokenMacros.Proofs.RefusedSettings
import TokenMacros.Proofs.RegisteredPlugins
import TokenMacros.Proofs.RoundLimits
import TokenMacros.Proofs.RuleTokens
import TokenMacros.Proofs.RunGuarantees
import TokenMacros.Proofs.SessionStops
import TokenMacros.Proofs.SettledPasses
import TokenMacros.Proofs.SettledTokens
import TokenMacros.Proofs.ShadowedRules
import TokenMacros.Proofs.SharedRegistries
import TokenMacros.Proofs.SharedSettings
import TokenMacros.Proofs.ShortenedComments
import TokenMacros.Proofs.SourcePieces
import TokenMacros.Proofs.SourceStops
import TokenMacros.Proofs.StablePieces
import TokenMacros.Proofs.StopLocality
import TokenMacros.Proofs.StopPieces
import TokenMacros.Proofs.TemplateFrames
import TokenMacros.Proofs.TemplatePasses
import TokenMacros.Proofs.TemplateSegments
import TokenMacros.Proofs.TemplateStart
import TokenMacros.Proofs.ThinnedCells
import TokenMacros.Proofs.ThinnedPieces
import TokenMacros.Proofs.TokenBoundaries
import TokenMacros.Proofs.TokenWeights
import TokenMacros.Proofs.TreeGrowth
import TokenMacros.Proofs.TriviaPieces
import TokenMacros.Proofs.TriviaTexts
import TokenMacros.Proofs.UnexplainedStops
import TokenMacros.Proofs.UntouchedFiles
import TokenMacros.Proofs.WeightedConvergence
