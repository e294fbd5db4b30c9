import RinaSense.Common.Chain
import RinaSense.Rmt.Du
import RinaSense.Flow.Read
import RinaSense.Flow.Concurrent
import RinaSense.Flow.Allocator
import RinaSense.Efcp.Dtp
import RinaSense.Common.Netbuf
import RinaSense.Library.Runs
import RinaSense.Common.RsList
import RinaSense.Library.Memory
import RinaSense.Common.Heap
import RinaSense.Common.Rsrc
import RinaSense.Rmt.Receive
import RinaSense.Rmt.Disposal
import RinaSense.Efcp.Rollover
import RinaSense.SerDes.Nanopb
import RinaSense.SerDes.RoundTrip
import RinaSense.SerDes.FlowMessage
import RinaSense.SerDes.Wire
import RinaSense.SerDes.Neighbor
import RinaSense.SerDes.NeighborWire
import RinaSense.SerDes.NeighborPack
import RinaSense.SerDes.NeighborTrip
import RinaSense.SerDes.NeighborList
import RinaSense.Shim.ArpExchange
import RinaSense.Rib.Adding
import RinaSense.Rib.Completion
import RinaSense.Rib.Connections
import RinaSense.Rib.Incoming
import RinaSense.Rib.Requests
import RinaSense.Rib.QueryErrors
import RinaSense.Rib.Replies
import RinaSense.Rib.Wait
import RinaSense.Enrollment.Inbound
import RinaSense.Library.Threads
import RinaSense.Queue.RsQueue
import RinaSense.Queue.ItemPool
import RinaSense.Queue.Places
import RinaSense.Queue.NonBlocking
import RinaSense.Ipcp.Events
import RinaSense.Efcp.Connections
import RinaSense.Common.Name
import RinaSense.Shim.Flows
import RinaSense.Flow.Lookup
import RinaSense.Library.Loop
import RinaSense.Common.BitArray
import RinaSense.Common.NumMgr
import RinaSense.Efcp.Imap
import RinaSense.Shim.ArpLatest
import RinaSense.Library.Handover
import RinaSense.Common.Links
import RinaSense.Common.Lifecycle
import RinaSense.Shim.Demux
import RinaSense.Common.NameBuild
import RinaSense.Ipcp.Task
import RinaSense.Flow.Write
import RinaSense.Flow.Alloc
import RinaSense.Common.Content
import RinaSense.Flow.ReadBuffer
import RinaSense.Library.Tracking
import RinaSense.Library.Owned
import RinaSense.Shim.ArpBounds
import RinaSense.Shim.ArpObjects
import RinaSense.Shim.ArpOutcome
import RinaSense.Shim.ArpReplies
import RinaSense.Common.Programs
import RinaSense.Common.Release
import RinaSense.Shim.Frames
import RinaSense.Shim.FrameArp
import RinaSense.Shim.FrameInput
import RinaSense.Common.Numbers
import RinaSense.Common.HandedOut
import RinaSense.Common.RsTime
import RinaSense.Flow.EventBits
import RinaSense.Flow.TimedRead
import RinaSense.Rib.InvokeIds
import RinaSense.SerDes.MessageNumbers
import RinaSense.SerDes.NeighborParts
import RinaSense.Library.Slots
import RinaSense.Rib.MessageBuild
import RinaSense.Rib.MessageBounds
import RinaSense.Rib.Outgoing
import RinaSense.Rib.Objects
import RinaSense.Flow.Request
import RinaSense.Flow.ObjectNames
import RinaSense.Efcp.Changes
import RinaSense.Flow.CreateReply
import RinaSense.Flow.Traces
import RinaSense.Shim.ArpFrame
import RinaSense.Efcp.Outcomes
import RinaSense.Efcp.Learning
import RinaSense.Rmt.Ports
import RinaSense.Rmt.SendPort
import RinaSense.Efcp.SendReport
import RinaSense.SerDes.Enrollment
import RinaSense.SerDes.Placement
import RinaSense.Library.Lifetimes
import RinaSense.Enrollment.Process
import RinaSense.Library.Fields
import RinaSense.Enrollment.Stray
import RinaSense.Shim.GpaFiller
import RinaSense.Shim.ArpHandles
import RinaSense.Shim.ArpDump
import RinaSense.Shim.ArpRefresh
import RinaSense.Shim.FlowRelease
import RinaSense.Common.NextNumber
import RinaSense.Shim.PortTable
import RinaSense.Shim.FlowSetup
import RinaSense.Common.Joined
import RinaSense.Shim.SduWrite
import RinaSense.Common.NameText
import RinaSense.Shim.AppRegister
import RinaSense.Common.Reading
import RinaSense.Common.Cutting
import RinaSense.Common.Appending
import RinaSense.Common.FreeAll
import RinaSense.Common.PoolRuns
import RinaSense.Common.PoolCap
import RinaSense.Common.NamePrint
import RinaSense.Common.NameParse
import RinaSense.Flow.NewFlow
import RinaSense.Common.TimeLeft
import RinaSense.Ipcp.Timer
import RinaSense.Common.Errors
import RinaSense.Common.RsSem
import RinaSense.Queue.OsFailures
import RinaSense.Rib.WaitDeadline
import RinaSense.Queue.Sequential
import RinaSense.Rib.MessagePacking
import RinaSense.SerDes.NeighborRegions
import RinaSense.Common.ArrayListRuns
import RinaSense.Rib.Reporting
import RinaSense.Common.ErrorChain
import RinaSense.Common.RsListRuns
import RinaSense.Shim.FrameContent
import RinaSense.Ipcp.Management
import RinaSense.NetworkInterface.Output
import RinaSense.NetworkInterface.Tap
import RinaSense.Ipcp.Exchange
import RinaSense.Queue.Linearizable
import RinaSense.Ipcp.EventOrder
import RinaSense.Rib.CdapTrip
import RinaSense.SerDes.FlowWire
