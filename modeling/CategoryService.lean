import CategoryService.Library.Register
import CategoryService.Library.EventMachine
import CategoryService.Library.Interaction
import CategoryService.Core
import CategoryService.Database
import CategoryService.Session
import CategoryService.CategoryDAO
import CategoryService.CategoryResource
import CategoryService.Library.Numeral
import CategoryService.Service
import CategoryService.Outcome
import CategoryService.Handlers
import CategoryService.Changes
import CategoryService.Names
import CategoryService.Update
import CategoryService.Creation
import CategoryService.Access
import CategoryService.ClientErrors
import CategoryService.Rollback
import CategoryService.Readers
import CategoryService.Library.Markup
import CategoryService.Views
import CategoryService.EditLoop
import CategoryService.Library.Linearization
import CategoryService.Shapes
import CategoryService.Concurrency
import CategoryService.SerialOrder
import CategoryService.UpdatePaths
import CategoryService.Library.Routing
import CategoryService.Routes
import CategoryService.Negotiation
import CategoryService.JsonClients
import CategoryService.Links
import CategoryService.Library.Elements
import CategoryService.ListPage
import CategoryService.Browsing
import CategoryService.Library.Replay
import CategoryService.History
import CategoryService.Library.Progress
import CategoryService.Transactions
import CategoryService.Freshness
