import SocialNetworkApp.Core.Str
import SocialNetworkApp.Core.Number
import SocialNetworkApp.Core.Decimal
import SocialNetworkApp.Core.Stream
import SocialNetworkApp.Core.Table
import SocialNetworkApp.Core.FileTree
import SocialNetworkApp.Core.FileSystem
import SocialNetworkApp.Core.Lexical
import SocialNetworkApp.Core.Markup
import SocialNetworkApp.Core.Subtree
import SocialNetworkApp.Config.Syntax
import SocialNetworkApp.Config.Lexer
import SocialNetworkApp.Config.Parser
import SocialNetworkApp.Config.Grammar
import SocialNetworkApp.Config.ParserCorrect
import SocialNetworkApp.Config.ParserSafety
import SocialNetworkApp.Config.RoundTrip
import SocialNetworkApp.Config.Lexemes
import SocialNetworkApp.Config.Lossless
import SocialNetworkApp.Config.LineEndings
import SocialNetworkApp.Config.Ports
import SocialNetworkApp.Config.Routes
import SocialNetworkApp.Config.Paths
import SocialNetworkApp.Core.Run
import SocialNetworkApp.Http.Message
import SocialNetworkApp.Http.Handlers
import SocialNetworkApp.Http.StaticFiles
import SocialNetworkApp.Meme.Mutexes
import SocialNetworkApp.Meme.Storage
import SocialNetworkApp.Meme.Module
import SocialNetworkApp.Meme.Pages
import SocialNetworkApp.Meme.Handler
import SocialNetworkApp.Meme.Exceptions
import SocialNetworkApp.Meme.Requests
import SocialNetworkApp.Meme.Loading
import SocialNetworkApp.Meme.Concurrent
import SocialNetworkApp.Meme.Store
import SocialNetworkApp.Meme.Operations
import SocialNetworkApp.Meme.Restart
import SocialNetworkApp.Meme.Refinement
import SocialNetworkApp.Meme.Comments
import SocialNetworkApp.Meme.Ratings
import SocialNetworkApp.Meme.Survival
import SocialNetworkApp.Meme.StartUp
import SocialNetworkApp.Meme.Listing
import SocialNetworkApp.Meme.Markup
import SocialNetworkApp.Crud.Handler
import SocialNetworkApp.Crud.Factory
import SocialNetworkApp.Crud.Ids
import SocialNetworkApp.Crud.Target
import SocialNetworkApp.Crud.Change
import SocialNetworkApp.Crud.Agreement
import SocialNetworkApp.Crud.Creation
import SocialNetworkApp.Crud.Listing
import SocialNetworkApp.Crud.Failures
import SocialNetworkApp.Crud.Confinement
import SocialNetworkApp.Crud.Store
import SocialNetworkApp.Crud.Refinement
import SocialNetworkApp.Crud.Reuse
import SocialNetworkApp.Crud.SameEntity
import SocialNetworkApp.Crud.Scan
import SocialNetworkApp.Crud.Rescan
import SocialNetworkApp.Crud.Exceptions
import SocialNetworkApp.Dispatch.Factories
import SocialNetworkApp.Dispatch.Dispatcher
import SocialNetworkApp.Dispatch.NullPointers
import SocialNetworkApp.Dispatch.LongestPrefix
import SocialNetworkApp.Dispatch.SharedRoot
import SocialNetworkApp.Dispatch.StaticRoot
import SocialNetworkApp.Dispatch.SharedRuns
import SocialNetworkApp.Dispatch.Refusal
import SocialNetworkApp.Dispatch.Framing
import SocialNetworkApp.Session.RequestParser
import SocialNetworkApp.Session.Session
import SocialNetworkApp.Session.Answers
import SocialNetworkApp.Session.WireRequest
import SocialNetworkApp.Session.Reading
import SocialNetworkApp.Session.Segmentation
import SocialNetworkApp.Session.Split
import SocialNetworkApp.Session.Promised
import SocialNetworkApp.Session.Fidelity
import SocialNetworkApp.Session.Outcomes
import SocialNetworkApp.Server.Server
import SocialNetworkApp.Server.Lifecycle
import SocialNetworkApp.Server.Service
import SocialNetworkApp.Crud.Covering
import SocialNetworkApp.Meme.Updates
import SocialNetworkApp.Meme.Records
import SocialNetworkApp.Core.Locks
import SocialNetworkApp.Dispatch.Locking
import SocialNetworkApp.Meme.Footprint
import SocialNetworkApp.Meme.Board
import SocialNetworkApp.Meme.Service
import SocialNetworkApp.Dispatch.Locations
import SocialNetworkApp.Dispatch.Services
import SocialNetworkApp.Dispatch.Restarts
import SocialNetworkApp.Config.Site
import SocialNetworkApp.Server.Main
import SocialNetworkApp.Server.Services
import SocialNetworkApp.Server.Site
