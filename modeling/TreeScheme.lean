import TreeScheme.Outline
import TreeScheme.Scheme.Printer
import TreeScheme.Validation.Basic
import TreeScheme.Proofs.Capture.Laws
import TreeScheme.Proofs.Capture.Rollback
import TreeScheme.Proofs.Matcher.Restoration
import TreeScheme.Proofs.Matcher.Cursor
import TreeScheme.Proofs.Capture.Gathering
import TreeScheme.Proofs.Matcher.Derivation
import TreeScheme.Proofs.Grammar.Compilation
import TreeScheme.Proofs.Matcher.Limit
import TreeScheme.Proofs.Matcher.Adequacy
import TreeScheme.Proofs.Matcher.Account
import TreeScheme.Proofs.Matcher.Conservation
import TreeScheme.Proofs.Outline.Placing
import TreeScheme.Proofs.Outline.Listing
import TreeScheme.Proofs.Scheme.Header
import TreeScheme.Proofs.Scheme.Rows
import TreeScheme.Proofs.Scheme.Drafts
import TreeScheme.Proofs.Scheme.Directives
import TreeScheme.Proofs.Scheme.RoundTrip
import TreeScheme.Proofs.Matcher.Room
import TreeScheme.Proofs.Matcher.Attempts
import TreeScheme.Proofs.Validation.Verdict
import TreeScheme.Proofs.Pattern.Spelling
import TreeScheme.Proofs.Pattern.Phrases
import TreeScheme.Proofs.Pattern.Canonical
import TreeScheme.Proofs.Scheme.Trimmed
import TreeScheme.Proofs.Scheme.Legible
import TreeScheme.Proofs.Scheme.Rendering
import TreeScheme.Proofs.Pattern.Unambiguity
import TreeScheme.Proofs.Pattern.Identity
import TreeScheme.Proofs.Grammar.Totality
import TreeScheme.Proofs.Scheme.Sharing
import TreeScheme.Proofs.Scheme.Declarations
import TreeScheme.Proofs.Scheme.WellFormed
import TreeScheme.Proofs.Grammar.Rearranged
import TreeScheme.Proofs.Scheme.Rearranged
import TreeScheme.Proofs.Outline.Lines
import TreeScheme.Proofs.Validation.Modes
import TreeScheme.Proofs.Validation.Scopes
import TreeScheme.Proofs.Grammar.Flavors
import TreeScheme.Proofs.Grammar.Refusals
import TreeScheme.Proofs.Grammar.Representation
import TreeScheme.Proofs.Grammar.Ledger
import TreeScheme.Proofs.Matcher.Boundaries
import TreeScheme.Proofs.Text.Parentheses
import TreeScheme.Proofs.Pattern.Places
import TreeScheme.Proofs.Pattern.Causes
import TreeScheme.Proofs.Grammar.Printing
import TreeScheme.Proofs.Matcher.Judgement
import TreeScheme.Proofs.Matcher.Repetition
import TreeScheme.Proofs.Grammar.Repetition
import TreeScheme.Proofs.Matcher.Grouping
import TreeScheme.Proofs.Grammar.Grouping
import TreeScheme.Proofs.Grammar.Unfolding
import TreeScheme.Proofs.Grammar.LeftRecursion
import TreeScheme.Proofs.Matcher.Rounds
import TreeScheme.Proofs.Matcher.Furthest
import TreeScheme.Proofs.Scheme.Preorder
import TreeScheme.Proofs.Scheme.Words
import TreeScheme.Proofs.Scheme.Blame
import TreeScheme.Proofs.Capture.Sessions
import TreeScheme.Proofs.Matcher.Transcript
import TreeScheme.Proofs.Lexeme.Catalog
import TreeScheme.Proofs.Scheme.Recognition
import TreeScheme.Proofs.Scheme.Usable
import TreeScheme.Proofs.Pattern.Occurrences
import TreeScheme.Proofs.Pattern.Spans
