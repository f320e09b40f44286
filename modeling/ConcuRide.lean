import ConcuRide.Common
import ConcuRide.Lib.Run
import ConcuRide.Lib.Circle
import ConcuRide.Lib.Allocator
import ConcuRide.Lib.History
import ConcuRide.Lib.Tour
import ConcuRide.Server.Messages
import ConcuRide.Server.Basic
import ConcuRide.Server.Registry
import ConcuRide.Server.Election
import ConcuRide.Server.Ring
import ConcuRide.Server.Handle
import ConcuRide.Server.Cases
import ConcuRide.Server.WellFormed
import ConcuRide.Network.Basic
import ConcuRide.Network.Steps
import ConcuRide.Network.Acks
import ConcuRide.Network.Announcement
import ConcuRide.Network.Orphans
import ConcuRide.Network.Uniqueness
import ConcuRide.Passenger.Handle
import ConcuRide.Server.Ledger
import ConcuRide.Network.Ids
import ConcuRide.Network.Updates
import ConcuRide.Passenger.Payments
import ConcuRide.Network.Agreement
import ConcuRide.Network.Rejoin
import ConcuRide.Network.Following
import ConcuRide.Driver.Token
import ConcuRide.Passenger.Attempts
import ConcuRide.Network.Snapshots
import ConcuRide.Network.Riders
import ConcuRide.Server.Desk
import ConcuRide.Lib.Token
import ConcuRide.Rides.World
import ConcuRide.Passenger.Authorization
import ConcuRide.Driver.Saved
import ConcuRide.Rides.Balance
import ConcuRide.Rides.Departures
import ConcuRide.Server.Standing
import ConcuRide.Driver.Notices
import ConcuRide.Rides.Cab
import ConcuRide.Rides.InStep
import ConcuRide.Lib.JsonText
import ConcuRide.Lib.March
import ConcuRide.Lib.Pursuit
import ConcuRide.Passenger.Recovery
import ConcuRide.Passenger.Select
import ConcuRide.Rides.Hunt
import ConcuRide.Rides.Walk
import ConcuRide.Serialize
import ConcuRide.Server.LeaderConnection
import ConcuRide.Server.UdpReceiver
import ConcuRide.Network.Rehabilitation
import ConcuRide.Network.Deposed
import ConcuRide.Network.Copies
import ConcuRide.Server.Retry
import ConcuRide.Server.Usable
import ConcuRide.Rides.Report
import ConcuRide.Rides.Service
import ConcuRide.Rides.Jump
import ConcuRide.Lib.Lines
import ConcuRide.Wire.Lines
import ConcuRide.Wire.RoundTrip
import ConcuRide.Wire.Reception
import ConcuRide.Wire.Ride
import ConcuRide.Network.Completion
import ConcuRide.Network.Logins
import ConcuRide.Rides.Arrival
