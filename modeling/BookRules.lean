import BookRules.Main
import BookRules.Proofs.Fetch.ChapterPages
import BookRules.Proofs.Fetch.FirstRequest
import BookRules.Proofs.Fetch.MergedBooks
import BookRules.Proofs.Fetch.ScheduledTasks
import BookRules.Proofs.Fetch.TocOrder
import BookRules.Proofs.Fetch.TocRows
import BookRules.Proofs.Finding.Addresses
import BookRules.Proofs.Finding.BoundVariables
import BookRules.Proofs.Finding.Fallback
import BookRules.Proofs.Finding.Independence
import BookRules.Proofs.Finding.JoinedTexts
import BookRules.Proofs.Finding.LazyTexts
import BookRules.Proofs.Finding.PostProcessing
import BookRules.Proofs.Finding.Substitution
import BookRules.Proofs.Finding.WrittenReferences
import BookRules.Proofs.Json.DocumentOrder
import BookRules.Proofs.Json.IntegerFilters
import BookRules.Proofs.Json.PathMeaning
import BookRules.Proofs.Json.TextFilters
import BookRules.Proofs.Markup.CleanLines
import BookRules.Proofs.Markup.References
import BookRules.Proofs.Page.SearchRows
import BookRules.Proofs.Request.Expressions
import BookRules.Proofs.Request.SearchShape
import BookRules.Proofs.Request.WrittenOptions
import BookRules.Proofs.Rule.CacheHistory
import BookRules.Proofs.Rule.CutBraces
import BookRules.Proofs.Rule.Expansions
import BookRules.Proofs.Rule.Merging
import BookRules.Proofs.Rule.PlaceholderEnds
import BookRules.Proofs.Rule.Segments
import BookRules.Proofs.Rule.WrittenBindings
import BookRules.Proofs.Select.AttributeValues
import BookRules.Proofs.Select.Composition
import BookRules.Proofs.Select.EscapedNames
import BookRules.Proofs.Select.JsonViews
import BookRules.Proofs.Select.KeptItems
import BookRules.Proofs.Select.Navigation
import BookRules.Proofs.Select.WrittenFilters
import BookRules.Proofs.Source.Documents
