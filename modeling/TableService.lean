import TableService.Registry
import TableService.Http.Exchange
import TableService.Logging
import TableService.Main
import TableService.Proofs.FilterMeaning
import TableService.Proofs.StatementPlaceholders
import TableService.Proofs.Spelling
import TableService.Proofs.Separators
import TableService.Proofs.NumberTokens
import TableService.Proofs.Legibility
import TableService.Proofs.GroupGrammar
import TableService.Proofs.GroupSlots
import TableService.Proofs.GroupUnambiguous
import TableService.Proofs.GroupReading
import TableService.Proofs.PercentRoundTrip
import TableService.Proofs.GroupWriting
import TableService.Proofs.HiddenColumn
import TableService.Proofs.AllOrNothing
import TableService.Proofs.FiniteMap
import TableService.Proofs.FilterOccurrences
import TableService.Proofs.FilterForm
import TableService.Proofs.CellOrder
import TableService.Proofs.Listings
import TableService.Proofs.JoinedParameters
import TableService.Proofs.JoinedQueries
import TableService.Proofs.QueryEncoding
import TableService.Proofs.PathTemplates
import TableService.Proofs.RouteTable
import TableService.Proofs.PageCount
import TableService.Proofs.PagesTile
import TableService.Proofs.Registration
import TableService.Proofs.ValueFaults
import TableService.Proofs.GroupFaults
import TableService.Proofs.GroupPlaces
import TableService.Proofs.FilterFaults
import TableService.Proofs.ListFailures
import TableService.Proofs.ReadBack
import TableService.Proofs.ExplainedPlans
import TableService.Proofs.LawfulStores
import TableService.Proofs.UpdateFrame
import TableService.Proofs.DetailWrites
import TableService.Proofs.NearestQuotient
import TableService.Proofs.PagesOfBindings
import TableService.Proofs.Patterns
import TableService.Proofs.Searches
import TableService.Proofs.RequiredColumns
import TableService.Proofs.SortSpecifications
import TableService.Proofs.PrintedDates
import TableService.Proofs.SuccessfulWrites
