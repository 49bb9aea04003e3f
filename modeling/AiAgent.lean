import AiAgent.Command.Interleave
import AiAgent.Gateway.Backlog
import AiAgent.Gateway.Capacity
import AiAgent.Worker.Parser
import AiAgent.Gateway.Watch
import AiAgent.Gateway.Watched
import AiAgent.Worker.Cluster
import AiAgent.Worker.Terminal
import AiAgent.Worker.Child
import AiAgent.Worker.Cancel
import AiAgent.Budget.Document
import AiAgent.Budget.Prompt
import AiAgent.Chat.Coordinator
import AiAgent.Chat.FileChat
import AiAgent.Auth.Identity
import AiAgent.Auth.Token
import AiAgent.Command.Cut
import AiAgent.Gateway.Found
import AiAgent.Gateway.Custody
import AiAgent.Gateway.Crash
import AiAgent.Worker.Lease
import AiAgent.Gateway.Change
import AiAgent.Gateway.Replay
import AiAgent.Gateway.Silence
import AiAgent.Gateway.Streams
import AiAgent.Gateway.Mirror
import AiAgent.Gateway.Delivery
import AiAgent.Worker.Conduct
import AiAgent.Worker.Order
import AiAgent.Gateway.Vouched
import AiAgent.Worker.Report
import AiAgent.Worker.Reply
import AiAgent.Gateway.Talk
import AiAgent.Worker.Tokens
import AiAgent.Chat.Commands
import AiAgent.Chat.Threads
import AiAgent.Chat.Legacy
import AiAgent.Chat.Conversations
import AiAgent.Chat.Migration
import AiAgent.Auth.Directory
import AiAgent.Auth.Refresh
import AiAgent.Store.Expiry
import AiAgent.Auth.Revocation
import AiAgent.Auth.Rotation
import AiAgent.Auth.LocalAdmin
import AiAgent.Budget.Question
import AiAgent.Budget.Selection
import AiAgent.Budget.Upload
import AiAgent.Budget.Parts
import AiAgent.Gateway.Load
import AiAgent.Gateway.Reserve
import AiAgent.Gateway.Memory
import AiAgent.Gateway.Probe
import AiAgent.Gateway.Schedule
import AiAgent.Upload.Extraction
import AiAgent.Gateway.RateLimiter
import AiAgent.Text.Json
import AiAgent.Client.EventStream
import AiAgent.Auth.Proxy
import AiAgent.Text.Ldif
import AiAgent.Auth.Entry
import AiAgent.Auth.Access
import AiAgent.Store.Dict
import AiAgent.Upload.FileName
import AiAgent.Upload.Staging
import AiAgent.Client.ThreadStore
import AiAgent.Worker.Progress
import AiAgent.Telemetry.Sampler
import AiAgent.Telemetry.History
import AiAgent.Client.Conversation
import AiAgent.Client.Requests
import AiAgent.Client.Screen
import AiAgent.Gateway.Heartbeat
import AiAgent.Chat.Routes
import AiAgent.Auth.Choice
