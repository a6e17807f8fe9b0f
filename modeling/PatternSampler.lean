import PatternSampler.Sample
import PatternSampler.Pattern.Batch
import PatternSampler.Pattern.Description
import PatternSampler.Pattern.Pool
import PatternSampler.Pattern.Stored
import PatternSampler.Settings.Document
import PatternSampler.Stored.Settings
import PatternSampler.Proofs.Batch.Workers
import PatternSampler.Proofs.Generation.Encoding
import PatternSampler.Proofs.Generation.Quickest
import PatternSampler.Proofs.Generation.TwoAlphabets
import PatternSampler.Proofs.Notation.SecondQuantifier
import PatternSampler.Proofs.Settings.Limit
import PatternSampler.Proofs.Stored.Loading
import PatternSampler.Proofs.SymbolSet.Construction
import PatternSampler.Proofs.Notation.Brackets
import PatternSampler.Proofs.Generation.Brackets
import PatternSampler.Proofs.Generation.Picking
import PatternSampler.Proofs.Generation.Escaping
import PatternSampler.Proofs.Notation.Prefixes
import PatternSampler.Proofs.Notation.Refusals
import PatternSampler.Proofs.Notation.Stopping
import PatternSampler.Proofs.Notation.Blame
import PatternSampler.Proofs.Generation.Shorthands
import PatternSampler.Proofs.SymbolSet.Laws
import PatternSampler.Proofs.Generation.Ignored
import PatternSampler.Proofs.Stored.Truncation
import PatternSampler.Proofs.Generation.RawBrackets
import PatternSampler.Proofs.Notation.Descent
