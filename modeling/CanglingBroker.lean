import CanglingBroker.Filters
import CanglingBroker.Database.Attempts
import CanglingBroker.Database.Consumers
import CanglingBroker.Database.Configured
import CanglingBroker.Database.ConfigureTopics
import CanglingBroker.Database.DeliveredBatch
import CanglingBroker.Database.Housekeeping
import CanglingBroker.Database.Readiness
import CanglingBroker.Database.Migration
import CanglingBroker.Writer.Duplicates
import CanglingBroker.Writer.Scope
import CanglingBroker.Writer.Order
import CanglingBroker.Lock.Holder
import CanglingBroker.Mqtt.Handshake
import CanglingBroker.Mqtt.Unsubscribe
import CanglingBroker.Mqtt.Takeover
import CanglingBroker.WebAuth.Reset
import CanglingBroker.Cache.Expiry
import CanglingBroker.Cache.Counter
import CanglingBroker.Cache.Eviction
import CanglingBroker.Election.Leadership
import CanglingBroker.Delivery.Intake
import CanglingBroker.Delivery.Fanout
import CanglingBroker.Delivery.Prefetch
import CanglingBroker.Timestamps
import CanglingBroker.Delivery.Polling
