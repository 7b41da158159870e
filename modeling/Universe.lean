import Universe.Client.Batch
import Universe.Client.Contract
import Universe.Client.Nesting
import Universe.Client.Release
import Universe.ClientBase.Sockets
import Universe.Codec.RoundTrip
import Universe.Codec.Json
import Universe.Codec.Utf16.Iteration
import Universe.EventManager.CloseOnce
import Universe.EventManager.Draining
import Universe.EventManager.Nesting
import Universe.EventManager.Registration
import Universe.EventManager.WriteOrder
import Universe.EventHook.Reentrancy
import Universe.Http.Injection
import Universe.Http.Framing
import Universe.Http.Spelling
import Universe.Http.Survival
import Universe.Http.Targets
import Universe.Utils.Splitting
import Universe.HttpGateway.Chunks
import Universe.HttpGateway.Ownership
import Universe.HttpGateway.Pipelining
import Universe.HttpGateway.RoundTrip
import Universe.HttpProxy.Authorisation
import Universe.HttpProxy.Boundaries
import Universe.HttpProxy.Forwarding
import Universe.HttpProxy.Framing
import Universe.HttpProxy.Leftover
import Universe.HttpProxy.Verification
import Universe.Protocol.Lengths
import Universe.Redis.Rejection
import Universe.ClientServer.Sessions
import Universe.Global.Arrival
import Universe.Remote.Handshake
import Universe.Proxy.Refusal
import Universe.Proxy.Transparency
import Universe.Server.Reuse
import Universe.SSLConnection.Delivery
import Universe.StreamReader.Offsets
import Universe.EasyP2P.Registry
import Universe.EasyP2P.Segmentation
import Universe.Socks.Greeting
import Universe.Socks.Relaying
import Universe.Socks.Request
import Universe.Soa.Correlation
import Universe.Soa.Framing
import Universe.Trie.Occurrences
import Universe.WebSocket.CloseCode
import Universe.WebSocket.Interleaving
import Universe.WebSocket.Upgrade
import Universe.Php
import Universe.Php.Connections
import Universe.Php.Isolation
import Universe.Php.Lookup
import Universe.Php.MySQL.Failures
import Universe.Php.Session
import Universe.Php.Static
import Universe.Php.Tables
import Universe.Php.Migration.History
import Universe.Php.Migration.Applied
import Universe.Php.Redis.Retries
import Universe.ThreadPool.Order
import Universe.ThreadPool.Settling
import Universe.Soa.Rpc
import Universe.HttpProxy.Dialogue
import Universe.Redis.Store
import Universe.WebSocket.Peers
import Universe.ClientServer.Supervision
import Universe.EventManager.Interest
import Universe.Server.Isolation
import Universe.EasyP2P.Introductions
import Universe.Scheduler.Alarms
import Universe.Php.Naming
import Universe.HttpProxy.Accountability
