import DeclListing.Main
import DeclListing.Check.Rules
import DeclListing.Listing.Grammar
import DeclListing.Listing.Rendering
import DeclListing.Proofs.CanonicalText
import DeclListing.Proofs.CheckDiagnostics
import DeclListing.Proofs.ListingGrammarExactness
import DeclListing.Proofs.RenderingRoundTrip
import DeclListing.Proofs.TokenGrammarExactness
import DeclListing.Proofs.UsageAccounts
import DeclListing.Proofs.NameConservation
import DeclListing.Proofs.LexerTiling
import DeclListing.Proofs.FaultPlaces
import DeclListing.Proofs.ReportPlaces
import DeclListing.Proofs.LineAccounts
import DeclListing.Proofs.ReportedPositions
import DeclListing.Proofs.Reprinting
import DeclListing.Proofs.ReaderParametricity
import DeclListing.Proofs.Relocation
import DeclListing.Proofs.JoinedTexts
import DeclListing.Proofs.TableHistories
import DeclListing.Proofs.BegunItems
import DeclListing.Proofs.ExpectedTokens
import DeclListing.Proofs.ListingCalls
import DeclListing.Proofs.MovedChecks
import DeclListing.Proofs.InsertedComments
import DeclListing.Proofs.NumericLookups
import DeclListing.Proofs.DiagnosticOrder
import DeclListing.Proofs.LexerCursor
import DeclListing.Proofs.ReportContents
import DeclListing.Proofs.DeclarationsFirst
import DeclListing.Proofs.PrintedLines
import DeclListing.Proofs.Renaming
import DeclListing.Proofs.CommandOutput
import DeclListing.Proofs.StyledOutput
import DeclListing.Proofs.ViablePrefixes
import DeclListing.Proofs.IntegerLimits
import DeclListing.Proofs.ReorderedReferences
import DeclListing.Proofs.FreshDeclarations
import DeclListing.Proofs.CheckLog
import DeclListing.Proofs.TerminalDecisions
import DeclListing.Proofs.LexicalFaults
import DeclListing.Proofs.RemovedComments
