import NpuBroker.Json.Units
import NpuBroker.Main
import NpuBroker.Session
import NpuBroker.Proofs.Capacity
import NpuBroker.Proofs.Claim.Vacancy
import NpuBroker.Proofs.Specifier.Meaning
import NpuBroker.Proofs.Tenancy
import NpuBroker.Proofs.Labels
import NpuBroker.Proofs.Enumeration
import NpuBroker.Proofs.Claim.Usable
import NpuBroker.Proofs.Claim.Turns
import NpuBroker.Proofs.Claim.Race
import NpuBroker.Proofs.Claim.Contention
import NpuBroker.Proofs.Gauges
import NpuBroker.Proofs.NodeNames
import NpuBroker.Proofs.Occupancy
import NpuBroker.Proofs.Claim.Accounts
import NpuBroker.Proofs.Channels
import NpuBroker.Proofs.Claim.Opening
import NpuBroker.Proofs.Grouping
import NpuBroker.Proofs.Spans
import NpuBroker.Proofs.Holders
import NpuBroker.Proofs.Specifier.Joined
import NpuBroker.Proofs.Specifier.Sources
import NpuBroker.Proofs.Documents
import NpuBroker.Proofs.FileNames
import NpuBroker.Proofs.ChannelFiles
