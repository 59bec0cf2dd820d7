import TorJet.Base.Machine
import TorJet.Base.Resequence
import TorJet.Base.Text
import TorJet.Base.Onion
import TorJet.Smartlist.Core
import TorJet.Smartlist.Pqueue
import TorJet.Conflux.Delivery
import TorJet.Conflux.Accounting
import TorJet.Conflux.Rebuild
import TorJet.Conflux.Quota
import TorJet.Pool.Budget
import TorJet.Pool.Prebuild
import TorJet.Pool.Refill
import TorJet.Pool.Coherent
import TorJet.Pool.Exits
import TorJet.Pool.Paths
import TorJet.Smartlist.Search
import TorJet.Conflux.System
import TorJet.Streams.Isolation
import TorJet.Launcher.Monitor
import TorJet.Launcher.Proxy
import TorJet.Launcher.Bridges
import TorJet.Launcher.Session
import TorJet.Launcher.Prune
import TorJet.Launcher.Priority
import TorJet.Congestion.Window
import TorJet.Congestion.Xoff
import TorJet.Crypto.Peel
import TorJet.Tunnel.Connect
import TorJet.Transports.Owned
import TorJet.Transports.Registry
import TorJet.Guards.Bridges
import TorJet.Bridges.Reached
import TorJet.Protover.RoundTrip
import TorJet.Protover.Vote
import TorJet.Versions.Compare
import TorJet.Relay.Codec
import TorJet.Selection.Rotation
import TorJet.Consdiff.RoundTrip
import TorJet.Addressmap.Reverse
import TorJet.Base.Tally
import TorJet.Congestion.Floor
import TorJet.Net.Address
import TorJet.Circpad.Runs
import TorJet.Encoding.Kvline
import TorJet.Encoding.Confline
import TorJet.Encoding.TimeFmt
import TorJet.Launcher.ConfluxQuery
import TorJet.Policy.Policies
import TorJet.Addressmap.Rewrite
import TorJet.Net.Codec
import TorJet.Policy.Definite
import TorJet.Policy.Order
import TorJet.Net.CString
import TorJet.Tunnel.Localhost
import TorJet.Process.Cmdline
import TorJet.Transports.Lines
import TorJet.Encoding.Base64
import TorJet.Guards.Upgrade
import TorJet.Guards.Consistency
import TorJet.Policy.Pattern
import TorJet.Base.Spans
import TorJet.Policy.Summary
import TorJet.Dirclient.Dlstatus
import TorJet.Base.Scan
import TorJet.Padding.Histogram
import TorJet.Padding.Removal
import TorJet.Padding.Limits
import TorJet.Base.Ring
import TorJet.Circuitstats.Times
import TorJet.Base.Quotient
import TorJet.Dirauth.Bwweights
import TorJet.Dirauth.Balance
import TorJet.Net.Wording
import TorJet.Net.Dest
import TorJet.Relay.Begin
import TorJet.Circuitstats.Saved
import TorJet.Circuitstats.Restored
import TorJet.Base.Checked
import TorJet.Onion.Cells
import TorJet.Onion.Extend
import TorJet.Onion.RoundTrip
import TorJet.Net.Addrport
import TorJet.Encoding.IsoTime
import TorJet.Guardstate.Line
import TorJet.Guardstate.Reload
import TorJet.Smartlist.PqueueRuns
import TorJet.Evloop.TokenBucket
import TorJet.Policy.Item
import TorJet.Routersets.Entries
import TorJet.Routersets.Members
import TorJet.Routersets.Lookup
import TorJet.Base.Framing
import TorJet.Cells.Segments
import TorJet.Base.Interned
import TorJet.Nodefamily.Family
import TorJet.Nodefamily.Members
import TorJet.Nodefamily.Lists
import TorJet.Nodefamily.Runs
import TorJet.Dirparse.Tokens
import TorJet.Dirparse.Reader
import TorJet.Dirparse.Tokenizer
import TorJet.Dirparse.Reliable
import TorJet.Dos.Counters
import TorJet.Hs.Replaycache
import TorJet.Evloop.Limits
import TorJet.Ext.Ht
